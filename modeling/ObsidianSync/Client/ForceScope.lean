import ObsidianSync.Client.ForceSync
import ObsidianSync.Client.Ignore

/-!
# The scope of a force push

The files of the device are filtered before they are handed to the runner: neither those of the
plugin nor the ignored ones are pushed.  The manifest is not filtered, so what is not synced on
this device is on the server only, to the plan.

## Main definitions

* `syncableLocalPaths`, `forcePushToRemote` — the command.
* `KeepsScope` — the ops name no remote file that is out of scope.
* `SparesScope` — the remote files that are out of scope match files of the device that have
  their content.

## Main results

* `fileId_mem_actions_iff` — the remote files that the plan names.
* `keepsScope_iff_sparesScope` — **the ops name no file out of scope exactly where each of them
  matches a file of the device by its folded path, and none that differs.**
-/

namespace ObsidianSync

open Engine

/-! ### The command -/

/-- The folder of the plugin itself. -/
def pluginPrivateDir : String := ".obsidian/plugins/obsidian-sync/"

/-- Whether a path is the plugin's own, or ignored. -/
def outOfScope (cfg : ClientConfig) (path : String) : Bool :=
  startsWith path pluginPrivateDir || cfg.ignores path

/-- The flags of the plugin that a force operation looks at. -/
structure ForceGate where
  inProgress : Bool := false
  /-- `encryptionUnlocked()`. -/
  unlocked : Bool := true

/-- Whether a push or a pull may begin. -/
def guardForce (gate : ForceGate) (e : Engine) : Bool :=
  !gate.inProgress && !e.paused && isWriteReady e && gate.unlocked

section Command

variable (P : Platform) (cfg : ClientConfig) (w : VaultWatcher)

/-- The files of the vault in scope.  A path without a canonical form makes it throw. -/
def syncableLocalPaths : Option (List String) :=
  (w.engine.vault.rows.mapM fun row => (normalizePath P row.1).toOption).map fun paths =>
    paths.filter fun path => !outOfScope cfg path

/-- The snapshot of a file; none where reading it throws. -/
def localSnapshot (path : String) : Option LocalFileSnapshot :=
  (hashPath P cfg w.engine.vault path).map fun hash =>
    { path, hash, type := classifyFileType path
      fileId := (w.engine.index.byPath path).map FileIndexEntry.fileId }

/-- The snapshots of the files in scope. -/
def localSnapshots : Option (List LocalFileSnapshot) :=
  (syncableLocalPaths P cfg w).bind fun paths => paths.mapM (localSnapshot P cfg w)

/-- `forcePushToRemote`, with the manifest of the server; none where it does not get to the
runner. -/
def forcePushToRemote {S : Type} (gate : ForceGate) (now : Time)
    (serve : FileOp → S → ForcedAnswer × S) (newFileId : ℕ → String) (opIds : ℕ → Uuid)
    (entries : List ManifestEntry) (server : S) :
    Option (ForcePushResult × VaultWatcher × ForceLoop S) :=
  if !guardForce gate w.engine then none
  else
    (localSnapshots P cfg w).map fun files =>
      forcePush P cfg now serve newFileId opIds entries files w server

/-- Whether the runner gets to the plan, with these files. -/
structure Starts (gate : ForceGate) (files : List LocalFileSnapshot) : Prop where
  guarded : guardForce gate w.engine = true
  snapshots : localSnapshots P cfg w = some files
  conflicts : w.engine.index.conflicts = []
  pending : w.engine.outbox.entries = []
  sessions : (files.any fun file =>
    truthy file.fileId && w.isRealtimeActiveFile (file.fileId.getD "")) = false

end Command

/-! ### The remote files that the plan names -/

section Plan

variable {P : Platform} {remote : List RemoteFileSnapshot} {files : List LocalFileSnapshot}

theorem mem_of_remoteByPath {path : String} {found : RemoteFileSnapshot}
    (h : remoteByPath P remote path = some found) :
    found ∈ remote ∧ caseFoldPath P found.path = caseFoldPath P path := by
  refine ⟨List.mem_reverse.mp (List.mem_of_find?_eq_some h), ?_⟩
  simpa using List.find?_some h

/-- A file is created under an id that the server does not have. -/
theorem createdFileId_ne {newFileId : String} {file : LocalFileSnapshot}
    (hfresh : ∀ entry ∈ remote, entry.fileId ≠ newFileId) :
    ∀ entry ∈ remote, entry.fileId ≠ createdFileId remote newFileId file := by
  intro entry hentry
  unfold createdFileId
  split
  · next hown =>
    obtain ⟨htruthy, hnot⟩ := Bool.and_eq_true_iff.mp hown
    obtain ⟨id, hid⟩ : ∃ id, file.fileId = some id := by
      cases hid : file.fileId with
      | none => rw [hid] at htruthy; cases htruthy
      | some id => exact ⟨id, rfl⟩
    rw [hid, Option.getD_some]
    rintro rfl
    rw [Bool.not_eq_true', List.any_eq_false] at hnot
    exact hnot entry hentry (by simp [hid])
  · exact hfresh entry hentry

/-- The content action of a file. -/
theorem of_planContent {newId : String} {file : LocalFileSnapshot} {action : ForcePushAction}
    (h : planContent P remote newId file = some action) :
    (∃ found, remoteByPath P remote file.path = some found ∧
      found.contentHash ≠ some file.hash ∧
      action = .content .update found.fileId file.path file.type found.contentVV) ∨
    (remoteByPath P remote file.path = none ∧
      action = .content .create (createdFileId remote newId file) file.path file.type
        VersionVector.emptyVV) := by
  unfold planContent at h
  split at h
  · next found hfound =>
    split at h
    · cases h
    · next hdiffers => exact Or.inl ⟨found, hfound, hdiffers, (Option.some.inj h).symm⟩
  · next hnone => exact Or.inr ⟨hnone, (Option.some.inj h).symm⟩

theorem of_planDelete {entry : RemoteFileSnapshot} {action : ForcePushAction}
    (h : planDelete P files entry = some action) :
    hasLocalPath P files entry.path = false ∧
      action = .delete entry.fileId entry.path entry.type := by
  unfold planDelete at h
  split at h
  · cases h
  · next hnot => exact ⟨by simpa using hnot, (Option.some.inj h).symm⟩

/-- Pairs of a list with their places. -/
theorem pairwise_zipIdx {α : Type*} {R : α → α → Prop} {l : List α} (h : l.Pairwise R) (n : ℕ) :
    (l.zipIdx n).Pairwise fun a b => R a.1 b.1 ∧ a.2 ≠ b.2 := by
  induction l generalizing n with
  | nil => simp
  | cons a l ih =>
    obtain ⟨hfirst, hrest⟩ := List.pairwise_cons.mp h
    rw [List.zipIdx_cons, List.pairwise_cons]
    refine ⟨?_, ih hrest (n + 1)⟩
    rintro ⟨b, place⟩ hb
    have hplace := List.le_snd_of_mem_zipIdx hb
    exact ⟨hfirst b (List.fst_mem_of_mem_zipIdx hb), by dsimp only at hplace ⊢; omega⟩

/-- **The remote files that the plan names**: those without a local path, and those that differ
from a file they match. -/
theorem fileId_mem_actions_iff {newFileId : ℕ → String}
    (hfresh : ∀ place, ∀ entry ∈ remote, entry.fileId ≠ newFileId place)
    {entry : RemoteFileSnapshot} (hentry : entry ∈ remote) :
    (∃ action ∈ (planForcePush P remote files newFileId).actions,
        action.fileId = entry.fileId) ↔
      ∃ other ∈ remote, other.fileId = entry.fileId ∧
        (hasLocalPath P files other.path = false ∨
          ∃ file ∈ files, remoteByPath P remote file.path = some other ∧
            other.contentHash ≠ some file.hash) := by
  simp only [planForcePush, List.mem_append, List.mem_filterMap]
  constructor
  · rintro ⟨action, ⟨⟨file, place⟩, hfile, hcontent⟩ | ⟨other, hother, hdelete⟩, hid⟩
    · have hmem : file ∈ files := List.fst_mem_of_mem_zipIdx hfile
      rcases of_planContent hcontent with ⟨found, hfound, hdiffers, rfl⟩ | ⟨-, rfl⟩
      · exact ⟨found, (mem_of_remoteByPath hfound).1, hid, Or.inr ⟨file, hmem, hfound, hdiffers⟩⟩
      · exact absurd hid.symm (createdFileId_ne (hfresh place) entry hentry)
    · obtain ⟨hnot, rfl⟩ := of_planDelete hdelete
      exact ⟨other, hother, hid, Or.inl hnot⟩
  · rintro ⟨other, hother, hid, hnot | ⟨file, hfile, hfound, hdiffers⟩⟩
    · refine ⟨.delete other.fileId other.path other.type, Or.inr ⟨other, hother, ?_⟩, hid⟩
      rw [planDelete, hnot]
      rfl
    · obtain ⟨place, hplace⟩ := List.mem_iff_getElem?.mp hfile
      refine ⟨.content .update other.fileId file.path file.type other.contentVV,
        Or.inl ⟨(file, place), List.mk_mem_zipIdx_iff_getElem?.mpr hplace, ?_⟩, hid⟩
      simp only [planContent, hfound, hdiffers, if_false]

/-- The files of the actions are those of the device. -/
theorem readable_of_mem_actions {newFileId : ℕ → String} {vault : Vault}
    (hfiles : ∀ file ∈ files, vault.contains file.path = true) {action : ForcePushAction}
    (h : action ∈ (planForcePush P remote files newFileId).actions) :
    action.readable vault = true := by
  simp only [planForcePush, List.mem_append, List.mem_filterMap] at h
  rcases h with ⟨⟨file, place⟩, hfile, hcontent⟩ | ⟨other, hother, hdelete⟩
  · have hthere := hfiles file (List.fst_mem_of_mem_zipIdx hfile)
    rcases of_planContent hcontent with ⟨_, -, -, rfl⟩ | ⟨-, rfl⟩ <;> exact hthere
  · obtain ⟨-, rfl⟩ := of_planDelete hdelete
    rfl

end Plan

/-! ### The ops that are sent -/

section Sent

variable {P : Platform} {cfg : ClientConfig} {w : VaultWatcher} {gate : ForceGate} (now : Time)
  (newFileId : ℕ → String) (opIds : ℕ → Uuid) (entries : List ManifestEntry)
  {files : List LocalFileSnapshot}

/-- The ops that a force push sent. -/
def sentOps {S : Type} (outcome : Option (ForcePushResult × VaultWatcher × ForceLoop S)) :
    List FileOp :=
  outcome.elim [] fun outcome => outcome.2.2.sent

/-- The files of the snapshots are in the vault. -/
theorem contains_of_localSnapshots (h : localSnapshots P cfg w = some files) :
    ∀ file ∈ files, w.engine.vault.contains file.path = true := by
  obtain ⟨paths, -, hfiles⟩ := Option.bind_eq_some_iff.mp h
  clear h
  induction paths generalizing files with
  | nil =>
    obtain rfl : [] = files := by simpa using hfiles
    simp
  | cons path paths ih =>
    rw [List.mapM_cons] at hfiles
    obtain ⟨first, hfirst, hthen⟩ := Option.bind_eq_some_iff.mp hfiles
    obtain ⟨rest, hrest, hcons⟩ := Option.bind_eq_some_iff.mp hthen
    obtain rfl := Option.some.inj hcons
    obtain ⟨hash, hhash, rfl⟩ := Option.map_eq_some_iff.mp hfirst
    intro file hfile
    rcases List.mem_cons.mp hfile with rfl | hfile
    · exact contains_of_hashPath hhash
    · exact ih hrest file hfile

/-- The actions of the plan, each with the id of its op. -/
def numberedActions (P : Platform) (newFileId : ℕ → String) (opIds : ℕ → Uuid)
    (entries : List ManifestEntry) (files : List LocalFileSnapshot) :
    List (ForcePushAction × Uuid) :=
  (planForcePush P (toRemoteSnapshots entries) files newFileId).actions.zipIdx.map fun action =>
    (action.1, opIds action.2)

theorem map_fst_numberedActions (files : List LocalFileSnapshot) :
    (numberedActions P newFileId opIds entries files).map Prod.fst
      = (planForcePush P (toRemoteSnapshots entries) files newFileId).actions := by
  rw [numberedActions, List.map_map]
  exact List.zipIdx_map_fst _ _

/-- Where the runner gets to the plan, its loop sends the ops. -/
theorem sentOps_of_starts {S : Type} (serve : FileOp → S → ForcedAnswer × S) (server : S)
    (h : Starts P cfg w gate files) :
    ∃ (adopted : ℕ) (e : Engine), SameLink w.engine e ∧
      sentOps (forcePushToRemote P cfg w gate now serve newFileId opIds entries server)
        = (pushActions P cfg now serve adopted
            (numberedActions P newFileId opIds entries files) { engine := e, server }).2.sent := by
  have hoff : forcePushToRemote P cfg w gate now serve newFileId opIds entries server
      = some (forcePush P cfg now serve newFileId opIds entries files w server) := by
    simp only [forcePushToRemote, h.guarded, Bool.not_true, Bool.false_eq_true, if_false,
      h.snapshots, Option.map_some]
  rw [hoff, sentOps, Option.elim_some, forcePush]
  simp only [h.conflicts, h.pending, h.sessions, List.isEmpty_nil, Bool.not_true,
    Bool.false_eq_true, if_false]
  refine ⟨_, { w.suspend.engine with
    index := (planForcePush P (toRemoteSnapshots entries) files newFileId).adoptions.foldl
      (LocalIndex.adopt P now (toRemoteSnapshots entries)) w.suspend.engine.index }, ?_, rfl⟩
  exact ⟨rfl, rfl⟩

/-- Where it does not, none is sent. -/
theorem sentOps_of_not_starts {S : Type} {serve : FileOp → S → ForcedAnswer × S} {server : S}
    (h : ∀ files, ¬ Starts P cfg w gate files) :
    sentOps (forcePushToRemote P cfg w gate now serve newFileId opIds entries server) = [] := by
  unfold forcePushToRemote
  split
  · rfl
  next hguard =>
  rw [Bool.not_eq_true', Bool.not_eq_false] at hguard
  cases hfiles : localSnapshots P cfg w with
  | none => rfl
  | some files =>
    rw [Option.map_some, sentOps, Option.elim_some, forcePush]
    split
    · rfl
    next hconflicts =>
    split
    · rfl
    next hpending =>
    split
    · rfl
    next hsessions =>
    rw [Bool.not_eq_true', Bool.not_eq_false, List.isEmpty_iff] at hconflicts hpending
    rw [Bool.not_eq_true] at hsessions
    exact absurd ⟨hguard, hfiles, hconflicts, hpending, hsessions⟩ (h files)

end Sent

/-! ### The files out of scope -/

/-- No op names a live remote file that is out of scope. -/
def KeepsScope (cfg : ClientConfig) (remote : List RemoteFileSnapshot) (ops : List FileOp) :
    Prop :=
  ∀ op ∈ ops, ∀ entry ∈ remote, outOfScope cfg entry.path = true → op.fileId ≠ entry.fileId

/-- Each live remote file with the id of one out of scope has the folded path of a file of the
device, and the content of each file that it is the match of. -/
def SparesScope (P : Platform) (cfg : ClientConfig) (remote : List RemoteFileSnapshot)
    (files : List LocalFileSnapshot) : Prop :=
  ∀ entry ∈ remote, outOfScope cfg entry.path = true →
    ∀ other ∈ remote, other.fileId = entry.fileId →
      hasLocalPath P files other.path = true ∧
        ∀ file ∈ files, remoteByPath P remote file.path = some other →
          other.contentHash = some file.hash

/-- The plan names no file out of scope exactly if they are spared. -/
theorem sparesScope_iff {P : Platform} {cfg : ClientConfig} {remote : List RemoteFileSnapshot}
    {files : List LocalFileSnapshot} {newFileId : ℕ → String}
    (hfresh : ∀ place, ∀ entry ∈ remote, entry.fileId ≠ newFileId place) :
    SparesScope P cfg remote files ↔
      ∀ action ∈ (planForcePush P remote files newFileId).actions, ∀ entry ∈ remote,
        outOfScope cfg entry.path = true → action.fileId ≠ entry.fileId := by
  constructor
  · intro hspares action haction entry hentry hout hid
    obtain ⟨other, hother, hid', hnamed⟩ :=
      (fileId_mem_actions_iff hfresh hentry).mp ⟨action, haction, hid⟩
    obtain ⟨hlocal, hmatches⟩ := hspares entry hentry hout other hother hid'
    rcases hnamed with hnot | ⟨file, hfile, hfound, hdiffers⟩
    · rw [hlocal] at hnot
      cases hnot
    · exact hdiffers (hmatches file hfile hfound)
  · intro hno entry hentry hout other hother hid
    have hnot : ¬ ∃ action ∈ (planForcePush P remote files newFileId).actions,
        action.fileId = entry.fileId := by
      rintro ⟨action, haction, hid'⟩
      exact hno action haction entry hentry hout hid'
    rw [fileId_mem_actions_iff hfresh hentry] at hnot
    constructor
    · by_contra hnone
      exact hnot ⟨other, hother, hid, Or.inl (by simpa using hnone)⟩
    · intro file hfile hfound
      by_contra hdiffers
      exact hnot ⟨other, hother, hid, Or.inr ⟨file, hfile, hfound, hdiffers⟩⟩

/-- **Whatever the server answers, the ops name no remote file out of scope, exactly where each
of these is spared by the files the push starts with.** -/
theorem keepsScope_iff_sparesScope (P : Platform) (cfg : ClientConfig) (ignore : SyncIgnore)
    (w : VaultWatcher) (gate : ForceGate) (now : Time) (newFileId : ℕ → String)
    (opIds : ℕ → Uuid) (entries : List ManifestEntry)
    (hfresh : ∀ place, ∀ entry ∈ toRemoteSnapshots entries, entry.fileId ≠ newFileId place) :
    (∀ (S : Type) (serve : FileOp → S → ForcedAnswer × S) (server : S),
      KeepsScope { cfg with ignores := ignore.ignores P } (toRemoteSnapshots entries)
        (sentOps (forcePushToRemote P { cfg with ignores := ignore.ignores P } w gate now serve
          newFileId opIds entries server))) ↔
      ∀ files, Starts P { cfg with ignores := ignore.ignores P } w gate files →
        SparesScope P { cfg with ignores := ignore.ignores P } (toRemoteSnapshots entries)
          files := by
  generalize ({ cfg with ignores := ignore.ignores P } : ClientConfig) = cfg
  constructor
  · intro hkeeps files hstarts
    -- a server that acks everything gets an op for each action
    obtain ⟨adopted, e, hsame, hsent⟩ := sentOps_of_starts now newFileId opIds entries
      (fun _ (_ : Unit) => (.ack 1 none, ())) () hstarts
    have hready : isWriteReady e = true := by
      have hguarded := hstarts.guarded
      simp only [guardForce, Bool.and_eq_true] at hguarded
      exact hsame.ready.trans hguarded.1.2
    have hactions : (numberedActions P newFileId opIds entries files).map Prod.fst
        = (planForcePush P (toRemoteSnapshots entries) files newFileId).actions :=
      map_fst_numberedActions newFileId opIds entries files
    have hreadable : ∀ action ∈ numberedActions P newFileId opIds entries files,
        action.1.readable e.vault = true := by
      intro action haction
      rw [hsame.vault]
      have hplanned := List.mem_map_of_mem (f := Prod.fst) haction
      rw [hactions] at hplanned
      exact readable_of_mem_actions (contains_of_localSnapshots hstarts.snapshots) hplanned
    have hall := pushActions_acked P cfg now (fun _ (_ : Unit) => (.ack 1 none, ())) adopted
      { engine := e, server := () } hready hreadable (fun _ _ => ⟨1, rfl⟩)
    refine (sparesScope_iff hfresh).mpr fun action haction entry hentry hout hid => ?_
    have hmem : action.fileId ∈ (numberedActions P newFileId opIds entries files).map
        fun action => action.1.fileId := by
      rw [← hactions, List.mem_map] at haction
      obtain ⟨numbered, hnumbered, rfl⟩ := haction
      exact List.mem_map_of_mem hnumbered
    rw [← List.nil_append (List.map _ _), ← List.map_nil, ← hall, ← hsent, List.mem_map] at hmem
    obtain ⟨op, hop, hid'⟩ := hmem
    exact hkeeps Unit _ () op hop entry hentry hout (hid'.trans hid)
  · intro hspares S serve server op hop entry hentry hout
    by_cases hstarts : ∃ files, Starts P cfg w gate files
    · obtain ⟨files, hstarts⟩ := hstarts
      obtain ⟨adopted, e, -, hsent⟩ := sentOps_of_starts now newFileId opIds entries serve server
        hstarts
      obtain ⟨n, htaken⟩ := pushActions_sent P cfg now serve adopted
        (numberedActions P newFileId opIds entries files) { engine := e, server }
      rw [hsent] at hop
      have hmem := List.mem_map_of_mem (f := FileOp.fileId) hop
      rw [htaken, List.map_nil, List.nil_append, List.mem_map] at hmem
      obtain ⟨action, haction, hid⟩ := hmem
      rw [← hid]
      refine (sparesScope_iff hfresh).mp (hspares files hstarts) action.1 ?_ entry hentry hout
      rw [← map_fst_numberedActions newFileId opIds]
      exact List.mem_map_of_mem (List.mem_of_mem_take haction)
    · rw [sentOps_of_not_starts now newFileId opIds entries (not_exists.mp hstarts)] at hop
      cases hop

/-! ### A directory that is ignored on one device -/

/-- A connected device with the files. -/
def sampleForcing (vault : Vault) : VaultWatcher where
  engine :=
    { index := { device := { deviceId := "d3", vaultId := some "v" } }
      outbox := OutboxManager.create "d3" 1 []
      vault
      transportReady := true
      handshakeComplete := true }

/-- The rules of settings that ignore a directory. -/
def samplePrivateIgnore : SyncIgnore := pluginIgnore "private/" "" sampleConfig.configSync

/-- Settings under which a directory is ignored. -/
def samplePrivateConfig : ClientConfig :=
  { sampleConfig with ignores := samplePrivateIgnore.ignores samplePlatform }

/-- A file of the manifest. -/
def sampleListed (fileId path text : String) : ManifestEntry :=
  { fileId, type := .note, path, contentHash := some (contentHashText samplePlatform text)
    size := none, blobRef := none, contentEncoding := none, contentVV := sampleVV "d1" 1
    pathClock := { lamport := 1, deviceId := "d1" }, epoch := 0, deleted := false }

/-- The ids of new files. -/
def sampleNewFileId (place : ℕ) : String := (sampleId (place + 100)).1

/-- The id of a new file is not that of the sample. -/
theorem ne_sampleNewFileId (place : ℕ) : "f1" ≠ sampleNewFileId place := by
  intro h
  have hchars := congrArg String.toList h
  simp [sampleNewFileId, sampleId] at hchars

/-- A file that is out of scope, and matches one with its content, is left alone. -/
theorem keepsScope_otherCase :
    outOfScope samplePrivateConfig "private/a.md" = true ∧
      ∀ (S : Type) (serve : FileOp → S → ForcedAnswer × S) (server : S),
        KeepsScope samplePrivateConfig
          (toRemoteSnapshots [sampleListed "f1" "private/a.md" "one"])
          (sentOps (forcePushToRemote samplePlatform samplePrivateConfig
            (sampleForcing (Table.empty.set ("Private/a.md", encodeText "one"))) {} 1 serve
            sampleNewFileId sampleId [sampleListed "f1" "private/a.md" "one"] server)) := by
  have hsnapshots : localSnapshots samplePlatform samplePrivateConfig
      (sampleForcing (Table.empty.set ("Private/a.md", encodeText "one")))
      = some [{ path := "Private/a.md", hash := contentHashText samplePlatform "one", type := .note
                fileId := none }] := by decide +kernel
  refine ⟨by decide +kernel, (keepsScope_iff_sparesScope samplePlatform sampleConfig
    samplePrivateIgnore _ {} 1 sampleNewFileId sampleId _ ?_).mpr ?_⟩
  · intro place entry hentry
    obtain rfl := List.mem_singleton.mp hentry
    exact ne_sampleNewFileId place
  · intro files hstarts
    obtain rfl := Option.some.inj (hstarts.snapshots.symm.trans hsnapshots)
    unfold SparesScope
    decide +kernel

/-- **What is not synced on this device is deleted**: the settings of the plugin on another one,
and a note under a directory that is ignored here. -/
theorem not_keepsScope_deleted :
    outOfScope samplePrivateConfig ".obsidian/plugins/obsidian-sync/data.json" = true ∧
      outOfScope samplePrivateConfig "private/a.md" = true ∧
      ¬ KeepsScope samplePrivateConfig
        (toRemoteSnapshots [sampleListed "f1" ".obsidian/plugins/obsidian-sync/data.json" "one",
          sampleListed "f2" "private/a.md" "two"])
        (sentOps (forcePushToRemote samplePlatform samplePrivateConfig (sampleForcing Table.empty)
          {} 1 (fun _ (_ : Unit) => (.ack 1 none, ())) sampleNewFileId sampleId
          [sampleListed "f1" ".obsidian/plugins/obsidian-sync/data.json" "one",
            sampleListed "f2" "private/a.md" "two"] ())) := by
  refine ⟨by decide +kernel, by decide +kernel, fun hkeeps => ?_⟩
  have hsent : (sentOps (forcePushToRemote samplePlatform samplePrivateConfig
      (sampleForcing Table.empty) {} 1 (fun _ (_ : Unit) => (.ack 1 none, ())) sampleNewFileId
      sampleId [sampleListed "f1" ".obsidian/plugins/obsidian-sync/data.json" "one",
        sampleListed "f2" "private/a.md" "two"] ())).map FileOp.fileId = ["f1", "f2"] := by
    decide +kernel
  have hdeleted : "f2" ∈ ["f1", "f2"] := by decide
  rw [← hsent, List.mem_map] at hdeleted
  obtain ⟨op, hop, hid⟩ := hdeleted
  refine hkeeps op hop { fileId := "f2", path := "private/a.md", type := .note
                         contentHash := some (contentHashText samplePlatform "two")
                         contentVV := sampleVV "d1" 1 } ?_ (by decide +kernel) hid
  exact List.mem_cons_of_mem _ (List.mem_singleton.mpr rfl)

end ObsidianSync
