import ObsidianSync.Client.ForcePush
import ObsidianSync.Client.VaultWatcher
import ObsidianSync.Socket.Messages

/-!
# Force push

A force push makes the vault on the server like the one on the device.  The plan compares the
files of the device with the manifest by their folded paths; the runner sends its ops one after
the other, and stops at the first that is not acked.

What the server does with an op is a parameter of the runner.

## Main definitions

* `planForcePush` — the plan: ops, and the entries of the index that get the id of the server.
* `ForcedAnswer`, `forceOp` — an op, and the answer to it.
* `forcePush` — `ForceSyncRunner.forcePush`.

## Main results

* `pushActions_acked` — a server that acks everything gets an op for each action.
* `pushActions_sent` — any server gets ops for a part of the actions, from the first on.
-/

namespace ObsidianSync

open Engine

/-! ### The plan -/

/-- A file of the device. -/
structure LocalFileSnapshot where
  path : String
  /-- The hash the server would store it under. -/
  hash : String
  type : FileType
  /-- The id the index has for the path. -/
  fileId : Option String
  deriving DecidableEq

/-- A live file of the server. -/
structure RemoteFileSnapshot where
  fileId : String
  path : String
  contentHash : Option String
  contentVV : VersionVector
  type : FileType
  deriving DecidableEq

/-- Whether an action makes a file or changes one. -/
inductive ForcePushMode
  | create
  | update
  deriving DecidableEq, Repr

/-- What a push does to the server. -/
inductive ForcePushAction
  | content (mode : ForcePushMode) (fileId path : String) (type : FileType)
      (dominateVV : VersionVector)
  | delete (fileId path : String) (type : FileType)
  deriving DecidableEq

/-- The file of an action. -/
def ForcePushAction.fileId : ForcePushAction → String
  | .content _ fileId _ _ _ => fileId
  | .delete fileId _ _ => fileId

/-- A path of the index that gets the id the server has for it. -/
structure ForcePushAdoption where
  path : String
  oldFileId : Option String
  newFileId : String
  deriving DecidableEq

/-- The actions of a push, and the ids the index takes over. -/
structure ForcePushPlan where
  actions : List ForcePushAction
  adoptions : List ForcePushAdoption

section Plan

variable (P : Platform) (remote : List RemoteFileSnapshot)

/-- `remoteByPath.get(caseFoldPath(path))`: the last file with the folded path. -/
def remoteByPath (path : String) : Option RemoteFileSnapshot :=
  remote.reverse.find? fun entry => caseFoldPath P entry.path = caseFoldPath P path

/-- `localPaths.has(caseFoldPath(path))`. -/
def hasLocalPath (files : List LocalFileSnapshot) (path : String) : Bool :=
  files.any fun file => caseFoldPath P file.path = caseFoldPath P path

/-- The id a file without a match is created under: its own, unless the server has it. -/
def createdFileId (newFileId : String) (file : LocalFileSnapshot) : String :=
  if truthy file.fileId && !(remote.any fun entry => some entry.fileId = file.fileId) then
    file.fileId.getD ""
  else newFileId

/-- What the loop over the files of the device adds to the adoptions. -/
def planAdoption (file : LocalFileSnapshot) : Option ForcePushAdoption :=
  match remoteByPath P remote file.path with
  | none => none
  | some found =>
    if file.fileId ≠ some found.fileId then
      some { path := file.path, oldFileId := file.fileId, newFileId := found.fileId }
    else none

/-- What the loop adds to the actions. -/
def planContent (newFileId : String) (file : LocalFileSnapshot) : Option ForcePushAction :=
  match remoteByPath P remote file.path with
  | some found =>
    if found.contentHash = some file.hash then none
    else some (.content .update found.fileId file.path file.type found.contentVV)
  | none =>
    some (.content .create (createdFileId remote newFileId file) file.path file.type
      VersionVector.emptyVV)

/-- What the loop over the files of the server adds to the actions. -/
def planDelete (files : List LocalFileSnapshot) (entry : RemoteFileSnapshot) :
    Option ForcePushAction :=
  if hasLocalPath P files entry.path then none
  else some (.delete entry.fileId entry.path entry.type)

/-- The plan, with the id `newFileId()` gives for the file at each place. -/
def planForcePush (files : List LocalFileSnapshot) (newFileId : ℕ → String) : ForcePushPlan :=
  { actions :=
      (files.zipIdx.filterMap fun file => planContent P remote (newFileId file.2) file.1) ++
        remote.filterMap (planDelete P files)
    adoptions := files.filterMap (planAdoption P remote) }

end Plan

/-- The live files of a manifest. -/
def toRemoteSnapshots (entries : List ManifestEntry) : List RemoteFileSnapshot :=
  (entries.filter fun entry => !entry.deleted).map fun entry =>
    { fileId := entry.fileId, path := entry.path, contentHash := entry.contentHash
      contentVV := entry.contentVV, type := entry.type }

/-! ### Ops and answers -/

/-- What comes back for an op. -/
inductive ForcedAnswer
  | ack (vaultSeq : ℕ) (conflictId : Option String)
  | reject (code : ErrorCode) (message : String)
  /-- Nothing, until the wait times out. -/
  | silent
  deriving DecidableEq, Repr

/-- The engine takes the answer in, and hands it to the one who waits. -/
def takeAnswer (cfg : ClientConfig) (now : Time) (op : FileOp) (e : Engine) :
    ForcedAnswer → ForcePushOpResult × Engine
  | .ack vaultSeq conflictId =>
    (if truthy conflictId then
        { ok := false, consumed := true, message := some ("conflict " ++ conflictId.getD "") }
      else { ok := true },
      handleAck now op.opId vaultSeq conflictId e)
  | .reject code message =>
    ({ ok := false, message := some (code.text ++ ": " ++ message) },
      handleReject cfg now (some op.opId) code message e)
  | .silent => (forcedTimeout, e)

/-- Why a force push did not start, or stopped. -/
inductive ForceBlocked
  | conflicts
  | realtimeActive
  | pendingOutbox
  | rejected
  deriving DecidableEq, Repr

/-- How a push ends. -/
inductive ForcePushResult
  | ok (created updated deleted adopted : ℕ)
  | blocked (reason : ForceBlocked) (message : Option String)
  /-- A file could not be read. -/
  | threw
  deriving DecidableEq, Repr

/-- The state of the loop over the actions: the engine, the server, the counts, and the ops
that were sent. -/
structure ForceLoop (S : Type) where
  engine : Engine
  server : S
  created : ℕ := 0
  updated : ℕ := 0
  deleted : ℕ := 0
  sent : List FileOp := []

section Runner

variable {S : Type} (P : Platform) (cfg : ClientConfig) (now : Time)
  (serve : FileOp → S → ForcedAnswer × S)

/-- `pushForced`, from the draft to the result. -/
def forceOp (opId : Uuid) (draft : FileOpDraft) (loop : ForceLoop S) :
    ForcePushOpResult × ForceLoop S :=
  let (op, e) := pushForced P now opId draft loop.engine
  if !isWriteReady loop.engine then
    ({ ok := false, message := some "transport not connected" }, { loop with engine := e })
  else
    let (answer, server) := serve op loop.server
    let (result, e) := takeAnswer cfg now op e answer
    (result,
      { loop with
        engine := endForced P now op result e
        server
        sent := loop.sent ++ [op] })

/-- The draft of an action; none where reading the file throws. -/
def actionDraft (action : ForcePushAction) (e : Engine) : Option (FileOpDraft × Engine) :=
  match action with
  | .content mode fileId path type dominateVV =>
    (makeForcedContentOp P cfg e fileId path type dominateVV (mode = .update)).map fun draft =>
      (draft, e)
  | .delete fileId _ type => some (makeDeleteOp cfg fileId type e)

/-- The action is counted. -/
def ForceLoop.count (action : ForcePushAction) (loop : ForceLoop S) : ForceLoop S :=
  match action with
  | .content .create _ _ _ _ => { loop with created := loop.created + 1 }
  | .content .update _ _ _ _ => { loop with updated := loop.updated + 1 }
  | .delete .. => { loop with deleted := loop.deleted + 1 }

/-- The loop over the actions, each with the id its op gets. -/
def pushActions (adopted : ℕ) :
    List (ForcePushAction × Uuid) → ForceLoop S → ForcePushResult × ForceLoop S
  | [], loop => (.ok loop.created loop.updated loop.deleted adopted, loop)
  | (action, opId) :: rest, loop =>
    match actionDraft P cfg action loop.engine with
    | none => (.threw, loop)
    | some (draft, e) =>
      let (result, loop) := forceOp P cfg now serve opId draft { loop with engine := e }
      if !result.ok then (.blocked .rejected result.message, loop)
      else pushActions adopted rest (loop.count action)

end Runner

/-! ### What the loop leaves alone -/

/-- The same files, and the same connection. -/
structure SameLink (e e' : Engine) : Prop where
  vault : e'.vault = e.vault
  ready : isWriteReady e' = isWriteReady e

namespace SameLink

variable {e e' e'' : Engine}

theorem refl (e : Engine) : SameLink e e := ⟨rfl, rfl⟩

theorem trans (h : SameLink e e') (h' : SameLink e' e'') : SameLink e e'' :=
  ⟨h'.vault.trans h.vault, h'.ready.trans h.ready⟩

theorem ite {c : Prop} [Decidable c] (h : SameLink e e') (h' : SameLink e e'') :
    SameLink e (if c then e' else e'') := by
  split
  · exact h
  · exact h'

end SameLink

theorem sameLink_flushOutbox (now : Time) (e : Engine) : SameLink e (flushOutbox now e) := by
  rcases flushOutbox_cases now e with h | ⟨entry, -, ⟨-, h⟩ | h⟩ <;> rw [h]
  · exact .refl e
  · exact ⟨rfl, rfl⟩
  · exact ⟨rfl, rfl⟩

theorem sameLink_handleAck (now : Time) (opId : String) (vaultSeq : ℕ)
    (conflictId : Option String) (e : Engine) :
    SameLink e (handleAck now opId vaultSeq conflictId e) := by
  have hwaiter : ∀ (result : ForcePushOpResult) (e' : Engine), SameLink e e' →
      SameLink e (if e'.forceWaiters.contains opId then settleWaiter opId result e' else e') := by
    intro result e' h
    exact .ite ⟨h.vault, h.ready⟩ h
  unfold handleAck
  dsimp only
  refine (hwaiter _ _ ?_).trans (sameLink_flushOutbox now _)
  exact ⟨rfl, rfl⟩

theorem sameLink_applyForcedToIndex (P : Platform) (now : Time) (op : FileOp) (e : Engine) :
    SameLink e (applyForcedToIndex P now op e) := by
  unfold applyForcedToIndex
  split
  · exact ⟨rfl, rfl⟩
  · exact .ite (.refl e) ⟨rfl, rfl⟩

theorem sameLink_endForced (P : Platform) (now : Time) (op : FileOp) (result : ForcePushOpResult)
    (e : Engine) : SameLink e (endForced P now op result e) := by
  unfold endForced
  split
  · exact (sameLink_applyForcedToIndex P now op e).trans ⟨rfl, rfl⟩
  split
  · exact ⟨rfl, rfl⟩
  · split <;> exact ⟨rfl, rfl⟩

theorem sameLink_pushForced (P : Platform) (now : Time) (opId : Uuid) (draft : FileOpDraft)
    (e : Engine) : SameLink e (pushForced P now opId draft e).2 := by
  have hqueued : SameLink e (persistOutbox { e with
      outbox := (e.outbox.enqueue now opId draft).2 }) := ⟨rfl, rfl⟩
  unfold pushForced
  dsimp only
  split
  · exact hqueued.trans (sameLink_endForced P now _ _ _)
  · exact ⟨rfl, rfl⟩

/-- The op is that of the draft, under the next sequence. -/
theorem pushForced_fst (P : Platform) (now : Time) (opId : Uuid) (draft : FileOpDraft)
    (e : Engine) : (pushForced P now opId draft e).1 = e.outbox.opOfDraft opId draft := by
  unfold pushForced
  dsimp only
  split <;> rfl

section Runner

variable {S : Type} (P : Platform) (cfg : ClientConfig) (now : Time)
  (serve : FileOp → S → ForcedAnswer × S)

/-- A client that is not connected sends nothing, and stops. -/
theorem forceOp_not_ready (opId : Uuid) (draft : FileOpDraft) (loop : ForceLoop S)
    (h : isWriteReady loop.engine = false) :
    (forceOp P cfg now serve opId draft loop).1.ok = false ∧
      (forceOp P cfg now serve opId draft loop).2.sent = loop.sent := by
  unfold forceOp
  simp only [h, Bool.not_false, if_true, and_self]

/-- One that is connected sends the op, and takes the answer in. -/
theorem forceOp_of_ready (opId : Uuid) (draft : FileOpDraft) (loop : ForceLoop S)
    (h : isWriteReady loop.engine = true) {pushed : FileOp × Engine}
    (hpushed : pushForced P now opId draft loop.engine = pushed) :
    forceOp P cfg now serve opId draft loop
      = ((takeAnswer cfg now pushed.1 pushed.2 (serve pushed.1 loop.server).1).1,
        { loop with
          engine := endForced P now pushed.1
            (takeAnswer cfg now pushed.1 pushed.2 (serve pushed.1 loop.server).1).1
            (takeAnswer cfg now pushed.1 pushed.2 (serve pushed.1 loop.server).1).2
          server := (serve pushed.1 loop.server).2
          sent := loop.sent ++ [pushed.1] }) := by
  unfold forceOp
  simp only [hpushed, h, Bool.not_true, Bool.false_eq_true, if_false]

/-- The op that it sends is that of the draft. -/
theorem sent_forceOp (opId : Uuid) (draft : FileOpDraft) (loop : ForceLoop S)
    (h : isWriteReady loop.engine = true) :
    (forceOp P cfg now serve opId draft loop).2.sent
      = loop.sent ++ [loop.engine.outbox.opOfDraft opId draft] := by
  rw [← pushForced_fst P now, forceOp_of_ready P cfg now serve opId draft loop h rfl]

/-- An op that is acked. -/
theorem forceOp_acked (opId : Uuid) (draft : FileOpDraft) (loop : ForceLoop S)
    (hready : isWriteReady loop.engine = true)
    (hack : ∀ op s, ∃ vaultSeq, (serve op s).1 = .ack vaultSeq none) :
    (forceOp P cfg now serve opId draft loop).1.ok = true ∧
      SameLink loop.engine (forceOp P cfg now serve opId draft loop).2.engine := by
  have hpushed := sameLink_pushForced P now opId draft loop.engine
  obtain ⟨vaultSeq, hserve⟩ := hack (pushForced P now opId draft loop.engine).1 loop.server
  rw [forceOp_of_ready P cfg now serve opId draft loop hready rfl, hserve]
  have hacked := sameLink_handleAck now (pushForced P now opId draft loop.engine).1.opId vaultSeq
    none (pushForced P now opId draft loop.engine).2
  exact ⟨rfl, hpushed.trans (hacked.trans (sameLink_endForced P now _ _ _))⟩

theorem fileId_actionDraft {action : ForcePushAction} {e e' : Engine} {draft : FileOpDraft}
    (h : actionDraft P cfg action e = some (draft, e')) :
    draft.fileId = action.fileId ∧ SameLink e e' := by
  cases action with
  | content mode fileId path type dominateVV =>
    simp only [actionDraft, Option.map_eq_some_iff, Prod.mk.injEq] at h
    obtain ⟨_, hdraft, rfl, rfl⟩ := h
    refine ⟨?_, .refl _⟩
    unfold makeForcedContentOp at hdraft
    dsimp only at hdraft
    split at hdraft
    · cases hdraft
    · obtain rfl := Option.some.inj hdraft
      rfl
  | delete fileId path type =>
    obtain ⟨rfl, rfl⟩ := Prod.mk.inj (Option.some.inj h)
    exact ⟨rfl, rfl, rfl⟩

/-- Whether the file of an action can be read. -/
def ForcePushAction.readable (vault : Vault) : ForcePushAction → Bool
  | .content _ _ path _ _ => vault.contains path
  | .delete .. => true

theorem isSome_actionDraft {action : ForcePushAction} {e : Engine}
    (h : action.readable e.vault = true) : (actionDraft P cfg action e).isSome = true := by
  cases action with
  | content mode fileId path type dominateVV =>
    obtain ⟨payload, hpayload⟩ := Option.isSome_iff_exists.mp (isSome_buildContentPayload P cfg h)
    simp only [actionDraft, makeForcedContentOp, hpayload, Option.map_some, Option.isSome_some]
  | delete fileId path type => rfl

/-- Counting an action changes the counts only. -/
theorem count_fields (action : ForcePushAction) (loop : ForceLoop S) :
    (loop.count action).engine = loop.engine ∧ (loop.count action).server = loop.server ∧
      (loop.count action).sent = loop.sent := by
  cases action with
  | content mode fileId path type dominateVV => cases mode <;> exact ⟨rfl, rfl, rfl⟩
  | delete fileId path type => exact ⟨rfl, rfl, rfl⟩

/-- **The ops that are sent are those of the actions, in order, up to one of them.** -/
theorem pushActions_sent (adopted : ℕ) (actions : List (ForcePushAction × Uuid))
    (loop : ForceLoop S) :
    ∃ n, (pushActions P cfg now serve adopted actions loop).2.sent.map FileOp.fileId
      = loop.sent.map FileOp.fileId ++ (actions.take n).map fun action => action.1.fileId := by
  induction actions generalizing loop with
  | nil => exact ⟨0, by simp [pushActions]⟩
  | cons action actions ih =>
    obtain ⟨action, opId⟩ := action
    rw [pushActions]
    cases hdraft : actionDraft P cfg action loop.engine with
    | none => exact ⟨0, by simp⟩
    | some drafted =>
      obtain ⟨draft, e⟩ := drafted
      have hid : draft.fileId = action.fileId := (fileId_actionDraft P cfg hdraft).1
      dsimp only
      cases hready : isWriteReady e with
      | false =>
        obtain ⟨hstops, hsent⟩ := forceOp_not_ready P cfg now serve opId draft
          { loop with engine := e } hready
        rw [hstops, Bool.not_false, if_pos rfl]
        exact ⟨0, by simp [hsent]⟩
      | true =>
        have hsent := sent_forceOp P cfg now serve opId draft { loop with engine := e } hready
        split
        · refine ⟨1, ?_⟩
          simp only [hsent, List.map_append, List.take_succ_cons, List.take_zero]
          exact congrArg _ (congrArg (fun id => [id]) hid)
        · obtain ⟨n, hn⟩ := ih ((forceOp P cfg now serve opId draft
            { loop with engine := e }).2.count action)
          refine ⟨n + 1, ?_⟩
          rw [hn, (count_fields action _).2.2, hsent, List.map_append, List.append_assoc,
            List.take_succ_cons, List.map_cons]
          exact congrArg _ (congrArg (· :: _) hid)

/-- **A server that acks everything gets an op for each action.** -/
theorem pushActions_acked (adopted : ℕ) {actions : List (ForcePushAction × Uuid)}
    (loop : ForceLoop S) (hready : isWriteReady loop.engine = true)
    (hreadable : ∀ action ∈ actions, action.1.readable loop.engine.vault = true)
    (hack : ∀ op s, ∃ vaultSeq, (serve op s).1 = .ack vaultSeq none) :
    (pushActions P cfg now serve adopted actions loop).2.sent.map FileOp.fileId
      = loop.sent.map FileOp.fileId ++ actions.map fun action => action.1.fileId := by
  induction actions generalizing loop with
  | nil => simp [pushActions]
  | cons action actions ih =>
    obtain ⟨action, opId⟩ := action
    obtain ⟨⟨draft, e⟩, hdraft⟩ := Option.isSome_iff_exists.mp
      (isSome_actionDraft P cfg (hreadable _ (List.mem_cons_self ..)))
    obtain ⟨hid, hsame⟩ := fileId_actionDraft P cfg hdraft
    have hready' : isWriteReady e = true := hsame.ready.trans hready
    have hsent := sent_forceOp P cfg now serve opId draft { loop with engine := e } hready'
    obtain ⟨hok, hsame'⟩ := forceOp_acked P cfg now serve opId draft
      { loop with engine := e } hready' hack
    rw [pushActions, hdraft]
    simp only [hok, Bool.not_true, Bool.false_eq_true, if_false]
    rw [ih, (count_fields action _).2.2, hsent, List.map_append, List.append_assoc, List.map_cons]
    · exact congrArg _ (congrArg (· :: _) hid)
    · rw [(count_fields action _).1]
      exact hsame'.ready.trans hready'
    · intro action' haction'
      rw [(count_fields action _).1, hsame'.vault]
      dsimp only
      rw [hsame.vault]
      exact hreadable action' (List.mem_cons_of_mem _ haction')

end Runner

/-! ### The index -/

namespace LocalIndex

/-- The entry of a file is dropped. -/
def removeFileId (index : LocalIndex) (fileId : String) : LocalIndex :=
  { index with files := index.files.erase fileId }

/-- The entry of an adopted path. -/
def adoptedEntry (P : Platform) (now : Time) (path : String) (found : RemoteFileSnapshot) :
    FileIndexEntry :=
  { fileId := found.fileId, path, pathNormalized := caseFoldPath P path, type := found.type
    contentHash := some (found.contentHash.getD ""), size := 0
    appliedContentVV := found.contentVV, isDir := false, mtime := now }

/-- The body of the loop over the adoptions. -/
def adopt (P : Platform) (now : Time) (remote : List RemoteFileSnapshot) (index : LocalIndex)
    (adoption : ForcePushAdoption) : LocalIndex :=
  match remoteByPath P remote adoption.path with
  | none => index
  | some found =>
    let index :=
      if truthy adoption.oldFileId then index.removeFileId (adoption.oldFileId.getD "") else index
    index.upsertFile
      { adoptedEntry P now adoption.path found with fileId := adoption.newFileId }

end LocalIndex

/-! ### The runner -/

namespace VaultWatcher

/-- The watcher rests, and forgets what it was about to send. -/
def suspend (w : VaultWatcher) : VaultWatcher :=
  { w with engine := { w.engine with suspended := true }, queued := [] }

/-- The watcher works again. -/
def resume (w : VaultWatcher) : VaultWatcher :=
  { w with engine := { w.engine with suspended := false } }

end VaultWatcher

/-- `ForceSyncRunner.forcePush`, with the manifest, the ids of new files by their places, and
those of the ops. -/
def forcePush {S : Type} (P : Platform) (cfg : ClientConfig) (now : Time)
    (serve : FileOp → S → ForcedAnswer × S) (newFileId : ℕ → String) (opIds : ℕ → Uuid)
    (entries : List ManifestEntry) (files : List LocalFileSnapshot) (w : VaultWatcher)
    (server : S) : ForcePushResult × VaultWatcher × ForceLoop S :=
  if !w.engine.index.conflicts.isEmpty then
    (.blocked .conflicts none, w, { engine := w.engine, server })
  else if !w.engine.outbox.entries.isEmpty then
    (.blocked .pendingOutbox none, w, { engine := w.engine, server })
  else if files.any fun file =>
      truthy file.fileId && w.isRealtimeActiveFile (file.fileId.getD "") then
    (.blocked .realtimeActive none, w, { engine := w.engine, server })
  else
    let w := w.suspend
    let remote := toRemoteSnapshots entries
    let plan := planForcePush P remote files newFileId
    let adopted := plan.adoptions.countP fun adoption =>
      (remoteByPath P remote adoption.path).isSome
    -- adopted before anything is sent, and kept if the sending fails
    let index := plan.adoptions.foldl (LocalIndex.adopt P now remote) w.engine.index
    let actions := plan.actions.zipIdx.map fun action => (action.1, opIds action.2)
    let (result, loop) := pushActions P cfg now serve adopted actions
      { engine := { w.engine with index }, server }
    (result, { w with engine := loop.engine }.resume, loop)

end ObsidianSync
