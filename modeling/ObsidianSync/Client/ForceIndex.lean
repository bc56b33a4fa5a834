import ObsidianSync.Client.ForceLoop
import ObsidianSync.Client.ForceScope

/-!
# The index after a force push

The runner points the index at the ids of the server before it sends anything: for each file
whose id differs it removes the entry of the old id and writes one under the new id.  An id that
a later file gives up may be one that an earlier file was given.

## Main definitions

* `Snapshotted`, `Lists`, `FreshIds` — the files, the manifest and the ids a push starts with.
* `AgreesWithServer` — what a push should leave.
* `Settles` — no id that a file is given is given up after it, and what is left alone has the
  vector of the server.

## Main results

* `planned_actions`, `apart_actions` — what a plan says of its actions.
* `byFileId_adopted` — the entry of an id after the adoptions.
* `agreesWithServer_iff_settles` — **a push that succeeds leaves an index that agrees with the
  server exactly if it settles.**
-/

namespace ObsidianSync

open Engine

/-! ### What a push starts with -/

/-- The snapshots are of different paths in canonical form, each with the id of the index. -/
structure Snapshotted (P : Platform) (index : LocalIndex) (files : List LocalFileSnapshot) :
    Prop where
  paths : files.Pairwise fun x y => x.path ≠ y.path
  canonical : ∀ file ∈ files, normalizePath P file.path = .ok file.path
  fileId : ∀ file ∈ files, file.fileId = (index.byPath file.path).map FileIndexEntry.fileId

/-- The manifest has the live files of the vault, once each. -/
structure Lists (vaultId : String) (s : Store) (entries : List ManifestEntry) : Prop where
  mem : ∀ entry, entry ∈ entries ↔
    ∃ row ∈ s.files.rows, LiveFile vaultId row ∧ row.toManifestEntry = entry
  nodup : entries.Nodup

/-- The ids that are made are new, to the server and to the index. -/
structure FreshIds (vaultId : String) (s : Store) (index : LocalIndex) (newFileId : ℕ → String)
    (opIds : ℕ → Uuid) : Prop where
  rows : ∀ place, s.getFile vaultId (newFileId place) = none
  entries : ∀ place, ∀ entry ∈ index.files.rows, entry.fileId ≠ newFileId place
  fileIds : Function.Injective newFileId
  ops : ∀ place, s.getOpById (opIds place).1 = none
  opIds : Function.Injective opIds

/-- The snapshots of paths. -/
theorem mapM_localSnapshot {P : Platform} {cfg : ClientConfig} {w : VaultWatcher}
    {paths : List String} {files : List LocalFileSnapshot}
    (h : paths.mapM (localSnapshot P cfg w) = some files) :
    files.map LocalFileSnapshot.path = paths ∧
      ∀ file ∈ files,
        file.fileId = (w.engine.index.byPath file.path).map FileIndexEntry.fileId := by
  induction paths generalizing files with
  | nil =>
    obtain rfl : [] = files := by simpa using h
    simp
  | cons path paths ih =>
    rw [List.mapM_cons] at h
    obtain ⟨first, hfirst, hthen⟩ := Option.bind_eq_some_iff.mp h
    obtain ⟨rest, hrest, hcons⟩ := Option.bind_eq_some_iff.mp hthen
    obtain rfl := Option.some.inj hcons
    obtain ⟨hash, -, rfl⟩ := Option.map_eq_some_iff.mp hfirst
    obtain ⟨hpaths, hids⟩ := ih hrest
    refine ⟨by rw [List.map_cons, hpaths], ?_⟩
    intro file hfile
    rcases List.mem_cons.mp hfile with rfl | hfile
    · rfl
    · exact hids file hfile

/-- The snapshots that the plugin makes of a vault with canonical paths. -/
theorem snapshotted_localSnapshots {P : Platform} {cfg : ClientConfig} {w : VaultWatcher}
    {files : List LocalFileSnapshot}
    (hvault : ∀ row ∈ w.engine.vault.rows, normalizePath P row.1 = .ok row.1)
    (h : localSnapshots P cfg w = some files) : Snapshotted P w.engine.index files := by
  obtain ⟨paths, hpaths, hfiles⟩ := Option.bind_eq_some_iff.mp h
  have hnormal : w.engine.vault.rows.mapM (fun row => (normalizePath P row.1).toOption)
      = some (w.engine.vault.rows.map Prod.fst) := by
    generalize w.engine.vault.rows = rows at hvault
    induction rows with
    | nil => rfl
    | cons row rows ih =>
      rw [List.mapM_cons, hvault row (List.mem_cons_self ..),
        ih fun row hrow => hvault row (List.mem_cons_of_mem _ hrow)]
      rfl
  rw [syncableLocalPaths, hnormal, Option.map_some] at hpaths
  obtain rfl := Option.some.inj hpaths
  obtain ⟨heq, hids⟩ := mapM_localSnapshot hfiles
  have hnodup : (files.map LocalFileSnapshot.path).Nodup := by
    rw [heq]
    exact w.engine.vault.nodup.filter _
  refine ⟨List.pairwise_map.mp hnodup, ?_, hids⟩
  intro file hfile
  have hmem := List.mem_map_of_mem (f := LocalFileSnapshot.path) hfile
  rw [heq] at hmem
  obtain ⟨row, hrow, hpath⟩ := List.mem_map.mp (List.mem_of_mem_filter hmem)
  rw [← hpath]
  exact hvault row hrow

/-! ### The remote files -/

section Plan

variable {P : Platform} {vaultId : String} {s : Store} {entries : List ManifestEntry}
  {files : List LocalFileSnapshot} {index : LocalIndex} {newFileId : ℕ → String}
  {opIds : ℕ → Uuid}

/-- A row as the plan sees it. -/
def remoteSnapshot (row : StoredFile) : RemoteFileSnapshot :=
  { fileId := row.fileId, path := row.path, contentHash := row.contentHash
    contentVV := row.contentVV, type := row.type }

theorem mem_toRemoteSnapshots_iff (hlists : Lists vaultId s entries) {found : RemoteFileSnapshot} :
    found ∈ toRemoteSnapshots entries ↔
      ∃ row ∈ s.files.rows, LiveFile vaultId row ∧ remoteSnapshot row = found := by
  simp only [toRemoteSnapshots, List.mem_map, List.mem_filter, hlists.mem, Bool.not_eq_true']
  constructor
  · rintro ⟨_, ⟨⟨row, hrow, hlive, rfl⟩, -⟩, rfl⟩
    exact ⟨row, hrow, hlive, rfl⟩
  · rintro ⟨row, hrow, hlive, rfl⟩
    exact ⟨_, ⟨⟨row, hrow, hlive, rfl⟩, hlive.2⟩, rfl⟩

/-- A live row is found by its id. -/
theorem getFile_of_live {row : StoredFile} (hrow : row ∈ s.files.rows)
    (hlive : LiveFile vaultId row) :
    s.getFile vaultId row.fileId = some row := by
  rw [← hlive.1]
  exact Table.get?_key hrow

/-- A match is a live row with the folded path. -/
theorem row_of_remoteByPath (hs : Consistent P vaultId s) (hlists : Lists vaultId s entries)
    {path : String} {found : RemoteFileSnapshot}
    (h : remoteByPath P (toRemoteSnapshots entries) path = some found) :
    ∃ row ∈ s.files.rows, LiveFile vaultId row ∧ remoteSnapshot row = found ∧
      row.pathNormalized = caseFoldPath P path := by
  obtain ⟨hmem, hfolded⟩ := mem_of_remoteByPath h
  obtain ⟨row, hrow, hlive, rfl⟩ := (mem_toRemoteSnapshots_iff hlists).mp hmem
  exact ⟨row, hrow, hlive, rfl, (hs.folded row hrow hlive).trans hfolded⟩

/-- Two live rows with one folded path are the same. -/
theorem eq_of_folded (hs : Consistent P vaultId s) {row row' : StoredFile}
    (hrow : row ∈ s.files.rows) (hrow' : row' ∈ s.files.rows) (hlive : LiveFile vaultId row)
    (hlive' : LiveFile vaultId row') (h : row.pathNormalized = row'.pathNormalized) :
    row = row' := by
  have hid := hs.livePaths row hrow row' hrow' hlive.2 hlive'.2 (hlive.1.trans hlive'.1.symm) h
  have hget := getFile_of_live hrow hlive
  rw [hid, getFile_of_live hrow' hlive'] at hget
  exact (Option.some.inj hget).symm

/-- A live row is the match of the paths with its folded path. -/
theorem remoteByPath_of_live (hs : Consistent P vaultId s) (hlists : Lists vaultId s entries)
    {path : String} {row : StoredFile} (hrow : row ∈ s.files.rows) (hlive : LiveFile vaultId row)
    (h : row.pathNormalized = caseFoldPath P path) :
    remoteByPath P (toRemoteSnapshots entries) path = some (remoteSnapshot row) := by
  cases hfound : remoteByPath P (toRemoteSnapshots entries) path with
  | none =>
    have hmem := (mem_toRemoteSnapshots_iff hlists).mpr ⟨row, hrow, hlive, rfl⟩
    have hne := List.find?_eq_none.mp hfound _ (List.mem_reverse.mpr hmem)
    rw [decide_eq_true_eq] at hne
    exact absurd ((hs.folded row hrow hlive).symm.trans h) hne
  | some found =>
    obtain ⟨row', hrow', hlive', rfl, hfolded⟩ := row_of_remoteByPath hs hlists hfound
    rw [eq_of_folded hs hrow' hrow hlive' hlive (hfolded.trans h.symm)]

/-- A live remote id is that of one row. -/
theorem eq_of_fileId {row row' : StoredFile} (hrow : row ∈ s.files.rows)
    (hrow' : row' ∈ s.files.rows) (hlive : LiveFile vaultId row) (hlive' : LiveFile vaultId row')
    (h : row.fileId = row'.fileId) : row = row' := by
  have hget := getFile_of_live hrow hlive
  rw [h, getFile_of_live hrow' hlive'] at hget
  exact (Option.some.inj hget).symm

/-- Two matches with one id are of one folded path. -/
theorem folded_of_matches (hs : Consistent P vaultId s) (hlists : Lists vaultId s entries)
    {path path' : String} {found found' : RemoteFileSnapshot}
    (h : remoteByPath P (toRemoteSnapshots entries) path = some found)
    (h' : remoteByPath P (toRemoteSnapshots entries) path' = some found')
    (hid : found.fileId = found'.fileId) : caseFoldPath P path = caseFoldPath P path' := by
  obtain ⟨row, hrow, hlive, rfl, hfolded⟩ := row_of_remoteByPath hs hlists h
  obtain ⟨row', hrow', hlive', rfl, hfolded'⟩ := row_of_remoteByPath hs hlists h'
  rw [← hfolded, ← hfolded', eq_of_fileId hrow hrow' hlive hlive' hid]

/-! ### The actions of a plan -/

/-- The remote files have none of the new ids. -/
theorem ne_newFileId (hlists : Lists vaultId s entries)
    (hfresh : FreshIds vaultId s index newFileId opIds) (place : ℕ) :
    ∀ entry ∈ toRemoteSnapshots entries, entry.fileId ≠ newFileId place := by
  intro entry hentry hid
  obtain ⟨row, hrow, hlive, rfl⟩ := (mem_toRemoteSnapshots_iff hlists).mp hentry
  have hnone := hfresh.rows place
  rw [← hid] at hnone
  have hsome := getFile_of_live hrow hlive
  have hid' : (remoteSnapshot row).fileId = row.fileId := rfl
  rw [hid', hsome] at hnone
  cases hnone

/-- **Each action of a plan is planned**: an update on a live file, a create on a free path. -/
theorem planned_actions (hs : Consistent P vaultId s) (hlists : Lists vaultId s entries)
    (hfiles : Snapshotted P index files) (hfresh : FreshIds vaultId s index newFileId opIds) :
    ∀ action ∈ (planForcePush P (toRemoteSnapshots entries) files newFileId).actions,
      Planned P vaultId s action := by
  intro action haction
  simp only [planForcePush, List.mem_append, List.mem_filterMap] at haction
  rcases haction with ⟨⟨file, place⟩, hfile, hcontent⟩ | ⟨entry, -, hdelete⟩
  · have hcanonical := hfiles.canonical file (List.fst_mem_of_mem_zipIdx hfile)
    rcases of_planContent hcontent with ⟨found, hfound, -, rfl⟩ | ⟨hnone, rfl⟩
    · obtain ⟨row, hrow, hlive, rfl, hfolded⟩ := row_of_remoteByPath hs hlists hfound
      exact ⟨hcanonical, row, getFile_of_live hrow hlive, hlive.2, hfolded, rfl⟩
    · refine ⟨hcanonical, ?_, ?_⟩
      · -- a live row would be in the manifest, under another id
        intro row hget
        by_contra hlive
        rw [Bool.not_eq_true] at hlive
        obtain ⟨hrow, hkey⟩ := Table.get?_eq_some_iff.mp hget
        have hmem := (mem_toRemoteSnapshots_iff hlists).mpr
          ⟨row, hrow, ⟨congrArg Prod.fst hkey, hlive⟩, rfl⟩
        exact createdFileId_ne (ne_newFileId hlists hfresh place) _ hmem (congrArg Prod.snd hkey)
      · intro row hrow hlive hfolded
        rw [remoteByPath_of_live hs hlists hrow hlive hfolded] at hnone
        cases hnone
  · obtain ⟨-, rfl⟩ := of_planDelete hdelete
    trivial

/-- The ids of two files that are created. -/
theorem createdFileId_apart {remote : List RemoteFileSnapshot} (hfiles : Snapshotted P index files)
    (hfresh : FreshIds vaultId s index newFileId opIds) {x y : LocalFileSnapshot} {i j : ℕ}
    (hx : x ∈ files) (hy : y ∈ files) (hpath : x.path ≠ y.path) (hplace : i ≠ j) :
    createdFileId remote (newFileId i) x ≠ createdFileId remote (newFileId j) y := by
  have hown : ∀ file ∈ files, ∀ place, createdFileId remote (newFileId place) file
      = newFileId place ∨ ∃ entry ∈ index.files.rows, entry.path = file.path ∧
        entry.fileId = createdFileId remote (newFileId place) file := by
    intro file hfile place
    unfold createdFileId
    split
    · next h =>
      obtain ⟨htruthy, -⟩ := Bool.and_eq_true_iff.mp h
      rw [hfiles.fileId file hfile] at htruthy ⊢
      cases hentry : index.byPath file.path with
      | none =>
        rw [hentry] at htruthy
        cases htruthy
      | some entry =>
        have hfound := List.find?_some hentry
        rw [decide_eq_true_eq] at hfound
        exact Or.inr ⟨entry, List.mem_of_find?_eq_some hentry, hfound.1, rfl⟩
    · exact Or.inl rfl
  intro heq
  rcases hown x hx i with hx' | ⟨entry, hentry, hentryPath, hentryId⟩
  · rcases hown y hy j with hy' | ⟨entry, hentry, -, hentryId⟩
    · rw [hx', hy'] at heq
      exact hplace (hfresh.fileIds heq)
    · exact hfresh.entries i entry hentry (by rw [hentryId, ← heq, hx'])
  · rcases hown y hy j with hy' | ⟨entry', hentry', hentryPath', hentryId'⟩
    · exact hfresh.entries j entry hentry (by rw [hentryId, heq, hy'])
    · -- one entry has one path
      have hsame : entry = entry' := Table.eq_of_key_eq hentry hentry'
        (by rw [hentryId, hentryId', heq])
      exact hpath (by rw [← hentryPath, ← hentryPath', hsame])

/-- The remote files have an id each. -/
theorem pairwise_remote (hlists : Lists vaultId s entries) :
    (toRemoteSnapshots entries).Pairwise fun a b => a.fileId ≠ b.fileId := by
  rw [toRemoteSnapshots, List.pairwise_map]
  refine (hlists.nodup.filter _).imp_of_mem ?_
  intro a b ha hb hne hid
  obtain ⟨row, hrow, hlive, rfl⟩ := (hlists.mem a).mp (List.mem_of_mem_filter ha)
  obtain ⟨row', hrow', hlive', rfl⟩ := (hlists.mem b).mp (List.mem_of_mem_filter hb)
  rw [eq_of_fileId hrow hrow' hlive hlive' hid] at hne
  exact hne rfl

/-- The content actions of two files that differ in their folded paths. -/
theorem planContent_apart (hs : Consistent P vaultId s) (hlists : Lists vaultId s entries)
    (hfiles : Snapshotted P index files) (hfresh : FreshIds vaultId s index newFileId opIds)
    {x y : LocalFileSnapshot} {i j : ℕ} {a b : ForcePushAction} (hx : x ∈ files) (hy : y ∈ files)
    (hfold : caseFoldPath P x.path ≠ caseFoldPath P y.path) (hplace : i ≠ j)
    (ha : planContent P (toRemoteSnapshots entries) (newFileId i) x = some a)
    (hb : planContent P (toRemoteSnapshots entries) (newFileId j) y = some b) :
    a.fileId ≠ b.fileId := by
  rcases of_planContent ha with ⟨found, hfound, -, rfl⟩ | ⟨-, rfl⟩
  · rcases of_planContent hb with ⟨found', hfound', -, rfl⟩ | ⟨-, rfl⟩
    · exact fun hid => hfold (folded_of_matches hs hlists hfound hfound' hid)
    · exact createdFileId_ne (ne_newFileId hlists hfresh j) found (mem_of_remoteByPath hfound).1
  · rcases of_planContent hb with ⟨found', hfound', -, rfl⟩ | ⟨-, rfl⟩
    · exact (createdFileId_ne (ne_newFileId hlists hfresh i) found'
        (mem_of_remoteByPath hfound').1).symm
    · exact createdFileId_apart hfiles hfresh hx hy (fun h => hfold (by rw [h])) hplace

/-- **The actions of files with different folded paths are apart.** -/
theorem apart_actions (hs : Consistent P vaultId s) (hlists : Lists vaultId s entries)
    (hfiles : Snapshotted P index files) (hfresh : FreshIds vaultId s index newFileId opIds)
    (hfolds : files.Pairwise fun x y => caseFoldPath P x.path ≠ caseFoldPath P y.path) :
    Apart P (planForcePush P (toRemoteSnapshots entries) files newFileId).actions := by
  -- different files, then different rows, then a file and a row that it does not match
  have hplaced := pairwise_zipIdx hfolds 0
  constructor
  · rw [planForcePush, List.pairwise_append, List.pairwise_filterMap, List.pairwise_filterMap]
    refine ⟨hplaced.imp_of_mem ?_, (pairwise_remote hlists).imp ?_, ?_⟩
    · intro x y hx hy h a ha b hb
      exact planContent_apart hs hlists hfiles hfresh (List.fst_mem_of_mem_zipIdx hx)
        (List.fst_mem_of_mem_zipIdx hy) h.1 h.2 ha hb
    · intro entry entry' hne a ha b hb
      obtain ⟨-, rfl⟩ := of_planDelete ha
      obtain ⟨-, rfl⟩ := of_planDelete hb
      exact hne
    · -- what is deleted matches no file
      intro a ha b hb
      obtain ⟨⟨file, place⟩, hfile, hcontent⟩ := List.mem_filterMap.mp ha
      obtain ⟨entry, hentry, hdelete⟩ := List.mem_filterMap.mp hb
      obtain ⟨hnot, rfl⟩ := of_planDelete hdelete
      rcases of_planContent hcontent with ⟨found, hfound, -, rfl⟩ | ⟨-, rfl⟩
      · intro hid
        obtain ⟨row, hrow, hlive, rfl, hfolded⟩ := row_of_remoteByPath hs hlists hfound
        obtain ⟨row', hrow', hlive', rfl⟩ := (mem_toRemoteSnapshots_iff hlists).mp hentry
        obtain rfl := eq_of_fileId hrow hrow' hlive hlive' hid
        have hpath : caseFoldPath P file.path = caseFoldPath P (remoteSnapshot row).path :=
          hfolded.symm.trans (hs.folded row hrow hlive)
        rw [hasLocalPath, List.any_eq_false] at hnot
        exact hnot file (List.fst_mem_of_mem_zipIdx hfile) (by simpa using hpath)
      · exact (createdFileId_ne (ne_newFileId hlists hfresh place) entry hentry).symm
  · rw [planForcePush, List.pairwise_append, List.pairwise_filterMap, List.pairwise_filterMap]
    -- a delete asks for no path
    have hdelete : ∀ (entry : RemoteFileSnapshot) (a : ForcePushAction),
        planDelete P files entry = some a → a.foldedPath P = none := by
      intro entry a ha
      obtain ⟨-, rfl⟩ := of_planDelete ha
      rfl
    have hcontent : ∀ (file : LocalFileSnapshot) (newId : String) (a : ForcePushAction),
        planContent P (toRemoteSnapshots entries) newId file = some a →
          a.foldedPath P = some (caseFoldPath P file.path) := by
      intro file newId a ha
      rcases of_planContent ha with ⟨_, -, -, rfl⟩ | ⟨-, rfl⟩ <;> rfl
    refine ⟨hplaced.imp ?_, (pairwise_remote hlists).imp ?_, ?_⟩
    · intro x y h a ha b hb folded hfolded
      rw [hcontent _ _ _ ha, Option.some.injEq] at hfolded
      rw [hcontent _ _ _ hb, ← hfolded, Ne, Option.some.injEq]
      exact h.1.symm
    · intro entry entry' _ a ha b hb folded hfolded
      rw [hdelete _ _ ha] at hfolded
      cases hfolded
    · intro a ha b hb folded hfolded
      obtain ⟨entry, -, hb'⟩ := List.mem_filterMap.mp hb
      rw [hdelete _ _ hb']
      simp

end Plan

/-! ### The adoptions -/

/-- The file is given the id. -/
def Takes (P : Platform) (remote : List RemoteFileSnapshot) (fileId : String)
    (file : LocalFileSnapshot) : Prop :=
  ∃ found, remoteByPath P remote file.path = some found ∧ found.fileId = fileId ∧
    file.fileId ≠ some fileId

/-- The file gives the id up, for that of the server. -/
def GivesUp (P : Platform) (remote : List RemoteFileSnapshot) (fileId : String)
    (file : LocalFileSnapshot) : Prop :=
  file.fileId = some fileId ∧
    ∃ found, remoteByPath P remote file.path = some found ∧ found.fileId ≠ fileId

section Adopt

variable {P : Platform} {now : Time} {remote : List RemoteFileSnapshot} {fileId : String}

/-- What the runner does with the index for a file. -/
def adoptFile (P : Platform) (now : Time) (remote : List RemoteFileSnapshot) (index : LocalIndex)
    (file : LocalFileSnapshot) : LocalIndex :=
  match planAdoption P remote file with
  | some adoption => index.adopt P now remote adoption
  | none => index

theorem foldl_adopt (P : Platform) (now : Time) (remote : List RemoteFileSnapshot)
    (files : List LocalFileSnapshot) (newFileId : ℕ → String) (index : LocalIndex) :
    (planForcePush P remote files newFileId).adoptions.foldl (LocalIndex.adopt P now remote) index
      = files.foldl (adoptFile P now remote) index := by
  rw [planForcePush, List.foldl_filterMap]
  congr 1
  funext index file
  unfold adoptFile
  cases planAdoption P remote file <;> rfl

/-- The entries after the adoption of a file. -/
theorem byFileId_adoptFile (now : Time) (index : LocalIndex) {file : LocalFileSnapshot}
    {found : RemoteFileSnapshot} (hfound : remoteByPath P remote file.path = some found)
    (hid : file.fileId ≠ some found.fileId) (fileId : String) :
    (adoptFile P now remote index file).byFileId fileId
      = if found.fileId = fileId then some (LocalIndex.adoptedEntry P now file.path found)
        else (if truthy file.fileId then index.removeFileId (file.fileId.getD "")
          else index).byFileId fileId := by
  have hplan : planAdoption P remote file
      = some { path := file.path, oldFileId := file.fileId, newFileId := found.fileId } := by
    simp only [planAdoption, hfound, hid, ne_eq, not_false_eq_true, if_true]
  rw [adoptFile, hplan]
  simp only [LocalIndex.adopt, hfound, LocalIndex.byFileId_upsertFile]
  rfl

theorem byFileId_removeFileId (index : LocalIndex) (fileId fileId' : String) :
    (index.removeFileId fileId).byFileId fileId'
      = if fileId' = fileId then none else index.byFileId fileId' := by
  rw [LocalIndex.byFileId, LocalIndex.removeFileId, Table.get?_erase]
  rfl

/-- The entry that a file is given. -/
theorem byFileId_adoptFile_of_takes (now : Time) (index : LocalIndex) {file : LocalFileSnapshot}
    {found : RemoteFileSnapshot} (hfound : remoteByPath P remote file.path = some found)
    (hid : file.fileId ≠ some found.fileId) :
    (adoptFile P now remote index file).byFileId found.fileId
      = some (LocalIndex.adoptedEntry P now file.path found) := by
  rw [byFileId_adoptFile now index hfound hid, if_pos rfl]

/-- An id that is given up has no entry any more. -/
theorem byFileId_adoptFile_of_givesUp (now : Time) (index : LocalIndex) {file : LocalFileSnapshot}
    (hnamed : fileId ≠ "") (h : GivesUp P remote fileId file) :
    (adoptFile P now remote index file).byFileId fileId = none := by
  obtain ⟨hown, found, hfound, hne⟩ := h
  have htruthy : truthy file.fileId = true := by
    rw [hown, truthy_some, decide_eq_true_eq]
    exact hnamed
  have hid : file.fileId ≠ some found.fileId := by
    rw [hown, Ne, Option.some.injEq]
    exact hne.symm
  rw [byFileId_adoptFile now index hfound hid, if_neg hne, if_pos htruthy, byFileId_removeFileId,
    hown, Option.getD_some, if_pos rfl]

/-- The entry of any other id stays. -/
theorem byFileId_adoptFile_of_not (now : Time) (index : LocalIndex) {file : LocalFileSnapshot}
    (htakes : ¬ Takes P remote fileId file) (hgives : ¬ GivesUp P remote fileId file) :
    (adoptFile P now remote index file).byFileId fileId = index.byFileId fileId := by
  cases hfound : remoteByPath P remote file.path with
  | none => simp [adoptFile, planAdoption, hfound]
  | some found =>
    by_cases hid : file.fileId = some found.fileId
    · simp [adoptFile, planAdoption, hfound, hid]
    · have hne : found.fileId ≠ fileId := fun heq =>
        htakes ⟨found, hfound, heq, fun h => hid (by rw [h, heq])⟩
      have hkept : file.fileId ≠ some fileId := fun heq => hgives ⟨heq, found, hfound, hne⟩
      rw [byFileId_adoptFile now index hfound hid, if_neg hne]
      split
      · next htruthy =>
        rw [byFileId_removeFileId, if_neg]
        intro heq
        cases hown : file.fileId with
        | none =>
          rw [hown] at htruthy
          cases htruthy
        | some own =>
          rw [hown, Option.getD_some] at heq
          exact hkept (by rw [hown, ← heq])
      · rfl

/-- Where no file is given an id, its entry stays unless it is given up. -/
theorem byFileId_foldl_adoptFile (now : Time) (index : LocalIndex) {files : List LocalFileSnapshot}
    (hnamed : fileId ≠ "") (htakes : ∀ file ∈ files, ¬ Takes P remote fileId file) :
    ((∀ file ∈ files, ¬ GivesUp P remote fileId file) →
      (files.foldl (adoptFile P now remote) index).byFileId fileId = index.byFileId fileId) ∧
    ((∃ file ∈ files, GivesUp P remote fileId file) →
      (files.foldl (adoptFile P now remote) index).byFileId fileId = none) := by
  induction files generalizing index with
  | nil => simp
  | cons file files ih =>
    obtain ⟨hkept, hlost⟩ := ih (adoptFile P now remote index file)
      fun file' hfile' => htakes file' (List.mem_cons_of_mem _ hfile')
    have hhead := htakes file (List.mem_cons_self ..)
    rw [List.foldl_cons]
    constructor
    · intro hgives
      rw [hkept fun file' hfile' => hgives file' (List.mem_cons_of_mem _ hfile')]
      exact byFileId_adoptFile_of_not now index hhead (hgives file (List.mem_cons_self ..))
    · rintro ⟨file', hfile', hgives⟩
      by_cases hlater : ∃ file' ∈ files, GivesUp P remote fileId file'
      · exact hlost hlater
      · rcases List.mem_cons.mp hfile' with rfl | hfile'
        · rw [hkept (by simpa using hlater)]
          exact byFileId_adoptFile_of_givesUp now index hnamed hgives
        · exact absurd ⟨file', hfile', hgives⟩ hlater

/-- **The entry of an id that one file is given**: there, unless a later file gives the id up. -/
theorem byFileId_adopted (now : Time) (index : LocalIndex) (before : List LocalFileSnapshot)
    {after : List LocalFileSnapshot} {file : LocalFileSnapshot} {found : RemoteFileSnapshot}
    (hnamed : found.fileId ≠ "") (hfound : remoteByPath P remote file.path = some found)
    (hid : file.fileId ≠ some found.fileId)
    (hafter : ∀ file' ∈ after, ¬ Takes P remote found.fileId file') :
    ((∀ file' ∈ after, ¬ GivesUp P remote found.fileId file') →
      ((before ++ file :: after).foldl (adoptFile P now remote) index).byFileId found.fileId
        = some (LocalIndex.adoptedEntry P now file.path found)) ∧
    ((∃ file' ∈ after, GivesUp P remote found.fileId file') →
      ((before ++ file :: after).foldl (adoptFile P now remote) index).byFileId found.fileId
        = none) := by
  obtain ⟨hkept, hlost⟩ := byFileId_foldl_adoptFile now
    (adoptFile P now remote (before.foldl (adoptFile P now remote) index) file) hnamed hafter
  rw [List.foldl_append, List.foldl_cons]
  refine ⟨fun hgives => ?_, hlost⟩
  rw [hkept hgives]
  exact byFileId_adoptFile_of_takes now _ hfound hid

end Adopt

/-! ### What a push should leave -/

/-- The file is tracked under the id and the vector of the server. -/
def TracksServer (P : Platform) (vaultId : String) (index : LocalIndex) (s : Store)
    (file : LocalFileSnapshot) : Prop :=
  ∃ entry ∈ index.files.rows, entry.deleted = false ∧ entry.path = file.path ∧
    ∃ row, s.findLiveFileByPath vaultId (caseFoldPath P file.path) = some row ∧
      entry.fileId = row.fileId ∧
      VersionVector.equals entry.appliedContentVV row.contentVV = true

/-- The index agrees with the server: each file is tracked, and no file that was deleted is live. -/
structure AgreesWithServer (P : Platform) (vaultId : String) (files : List LocalFileSnapshot)
    (sent : List FileOp) (index : LocalIndex) (s : Store) : Prop where
  tracked : ∀ file ∈ files, TracksServer P vaultId index s file
  deleted : ∀ op ∈ sent, op.kind = .delete →
    ∀ entry ∈ index.files.rows, entry.fileId = op.fileId → entry.deleted = true

/-- What the push relies on, of the files, the manifest and the index it starts with. -/
structure Settles (P : Platform) (remote : List RemoteFileSnapshot)
    (files : List LocalFileSnapshot) (index : LocalIndex) : Prop where
  /-- No two files have one folded path. -/
  folded : files.Pairwise fun x y => caseFoldPath P x.path ≠ caseFoldPath P y.path
  /-- A file with the id and the content of the server is indexed under its vector. -/
  current : ∀ file ∈ files, ∀ found, remoteByPath P remote file.path = some found →
    found.contentHash = some file.hash → file.fileId = some found.fileId →
      ∀ entry, index.byFileId found.fileId = some entry →
        VersionVector.equals entry.appliedContentVV found.contentVV = true
  /-- An id that a file with the content of the server is given is not given up after it. -/
  ordered : files.Pairwise fun x y => ∀ found, remoteByPath P remote x.path = some found →
    found.contentHash = some x.hash → Takes P remote found.fileId x →
      ¬ GivesUp P remote found.fileId y

/-! ### The rows that a push leaves -/

section Agree

variable {P : Platform} {vaultId : String} {s : Store} {index : LocalIndex}
  {actions : List ForcePushAction} {loop : ForceLoop Store}

/-- Two actions under one folded path are the same. -/
theorem Apart.eq_of_foldedPath (h : Apart P actions) {a b : ForcePushAction} (ha : a ∈ actions)
    (hb : b ∈ actions) {folded : String} (hfolded : a.foldedPath P = some folded)
    (hfolded' : b.foldedPath P = some folded) : a = b := by
  by_contra hne
  have hsymm : Std.Symm fun a b : ForcePushAction => ∀ folded,
      a.foldedPath P = some folded → b.foldedPath P ≠ some folded :=
    ⟨fun _ _ h folded hb ha => h folded ha hb⟩
  exact h.folds.forall ha hb hne folded hfolded hfolded'

/-- A live row after the push: an action left it under its path, or it was there before. -/
theorem Pushed.row_cases (h : Pushed P vaultId s index actions loop) {row : StoredFile}
    (hrow : row ∈ loop.server.files.rows) (hlive : LiveFile vaultId row) :
    (∃ action ∈ actions, action.fileId = row.fileId ∧
      action.foldedPath P = some row.pathNormalized) ∨
    ((∀ action ∈ actions, action.fileId ≠ row.fileId) ∧ row ∈ s.files.rows) := by
  have hget := getFile_of_live hrow hlive
  by_cases hdone : ∀ action ∈ actions, action.fileId ≠ row.fileId
  · rw [h.rows row.fileId hdone] at hget
    exact Or.inr ⟨hdone, Table.mem_of_get? hget⟩
  · simp only [not_forall, not_not] at hdone
    obtain ⟨action, haction, hid⟩ := hdone
    have hsettled := h.settled action haction
    cases action with
    | delete fileId path type =>
      have hdeleted := hsettled.2 row (by rw [← hget]; exact congrArg _ hid)
      rw [hlive.2] at hdeleted
      cases hdeleted
    | content mode fileId path type dominateVV =>
      obtain ⟨entry, row', -, hrow', -, -, -, hpath, -⟩ := hsettled
      have hid' : fileId = row.fileId := hid
      rw [hid', hget] at hrow'
      obtain rfl := Option.some.inj hrow'
      exact Or.inl ⟨_, haction, hid, congrArg some hpath.symm⟩

/-- A live row is what its folded path finds, where no other has the path. -/
theorem findLiveFileByPath_of_unique {row : StoredFile} {folded : String}
    (hrow : row ∈ s.files.rows) (hlive : LiveFile vaultId row) (hpath : row.pathNormalized = folded)
    (hunique : ∀ row' ∈ s.files.rows, LiveFile vaultId row' → row'.pathNormalized = folded →
      row'.fileId = row.fileId) :
    s.findLiveFileByPath vaultId folded = some row := by
  cases hfound : s.findLiveFileByPath vaultId folded with
  | none => exact absurd hpath (Store.findLiveFileByPath_eq_none_iff.mp hfound row hrow hlive)
  | some row' =>
    obtain ⟨hrow', hlive', hpath'⟩ := Store.of_findLiveFileByPath hfound
    rw [eq_of_fileId hrow' hrow hlive' hlive (hunique row' hrow' hlive' hpath')]

/-- **The file of a content action is tracked.** -/
theorem Pushed.tracked_of_mem (h : Pushed P vaultId s index actions loop)
    (hs : Consistent P vaultId s) (hplanned : ∀ action ∈ actions, Planned P vaultId s action)
    (hapart : Apart P actions) {mode : ForcePushMode} {fileId : String} {type : FileType}
    {dominateVV : VersionVector} {file : LocalFileSnapshot}
    (haction : .content mode fileId file.path type dominateVV ∈ actions) :
    TracksServer P vaultId loop.engine.index loop.server file := by
  obtain ⟨entry, row, hentry, hrow, hentryLive, hentryPath, hrowLive, hrowPath, hvv⟩ :=
    h.settled _ haction
  obtain ⟨hmem, hkey⟩ := Table.get?_eq_some_iff.mp hrow
  have hlive : LiveFile vaultId row := ⟨congrArg Prod.fst hkey, hrowLive⟩
  have hrowId : row.fileId = fileId := congrArg Prod.snd hkey
  refine ⟨entry, Table.mem_of_get? hentry, hentryLive, hentryPath, row,
    findLiveFileByPath_of_unique hmem hlive hrowPath ?_,
    (Table.key_of_get? hentry).trans hrowId.symm, ?_⟩
  · intro row' hrow' hlive' hpath'
    rw [hrowId]
    rcases h.row_cases hrow' hlive' with ⟨b, hb, hid, hfolded⟩ | ⟨hnone, hbefore⟩
    · rw [hpath'] at hfolded
      rw [hapart.eq_of_foldedPath hb haction hfolded rfl] at hid
      exact hid.symm
    · -- a row that was there before would be the one to update
      have hfile := hplanned _ haction
      cases mode with
      | update =>
        obtain ⟨-, row₀, hget, hlive₀, hpath₀, -⟩ := hfile
        obtain ⟨hmem₀, hkey₀⟩ := Table.get?_eq_some_iff.mp hget
        have hsame := eq_of_folded hs hbefore hmem₀ hlive' ⟨congrArg Prod.fst hkey₀, hlive₀⟩
          (hpath'.trans hpath₀.symm)
        rw [hsame]
        exact congrArg Prod.snd hkey₀
      | create => exact absurd hpath' (hfile.2.2 row' hbefore hlive')
  · rw [hvv, VersionVector.equals, VersionVector.dominates_refl, Bool.and_self]

/-- A row that no action is about, and under whose path none is, is found as before. -/
theorem Pushed.find_of_untouched (h : Pushed P vaultId s index actions loop)
    (hs : Consistent P vaultId s) {row : StoredFile} (hrow : row ∈ s.files.rows)
    (hlive : LiveFile vaultId row) (hids : ∀ action ∈ actions, action.fileId ≠ row.fileId)
    (hpaths : ∀ action ∈ actions, action.foldedPath P ≠ some row.pathNormalized) :
    loop.server.findLiveFileByPath vaultId row.pathNormalized = some row := by
  have hget := getFile_of_live hrow hlive
  rw [← h.rows row.fileId hids] at hget
  refine findLiveFileByPath_of_unique (Table.mem_of_get? hget) hlive rfl ?_
  intro row' hrow' hlive' hpath'
  rcases h.row_cases hrow' hlive' with ⟨b, hb, -, hfolded⟩ | ⟨-, hbefore⟩
  · rw [hpath'] at hfolded
    exact absurd hfolded (hpaths b hb)
  · rw [eq_of_folded hs hbefore hrow hlive' hlive hpath']

end Agree

/-! ### The push -/

section Push

variable {P : Platform} {cfg : ClientConfig} {vaultId : String} {s : Store}
  {entries : List ManifestEntry} {files : List LocalFileSnapshot} {index : LocalIndex}
  {newFileId : ℕ → String} {opIds : ℕ → Uuid} {loop : ForceLoop Store}

/-- The folded path of an action, and of the file it is for. -/
theorem foldedPath_of_planContent {remote : List RemoteFileSnapshot} {newId : String}
    {file : LocalFileSnapshot} {action : ForcePushAction}
    (h : planContent P remote newId file = some action) :
    action.foldedPath P = some (caseFoldPath P file.path) := by
  rcases of_planContent h with ⟨_, -, -, rfl⟩ | ⟨-, rfl⟩ <;> rfl

/-- No action is about a file that has the content of the server already, nor under its path. -/
theorem untouched_of_current (hs : Consistent P vaultId s) (hlists : Lists vaultId s entries)
    (hfresh : FreshIds vaultId s index newFileId opIds)
    (hfolds : files.Pairwise fun x y => caseFoldPath P x.path ≠ caseFoldPath P y.path)
    {file : LocalFileSnapshot} (hfile : file ∈ files) {found : RemoteFileSnapshot}
    (hfound : remoteByPath P (toRemoteSnapshots entries) file.path = some found)
    (hhash : found.contentHash = some file.hash) :
    ∀ action ∈ (planForcePush P (toRemoteSnapshots entries) files newFileId).actions,
      action.fileId ≠ found.fileId ∧
        action.foldedPath P ≠ some (caseFoldPath P file.path) := by
  intro action haction
  simp only [planForcePush, List.mem_append, List.mem_filterMap] at haction
  rcases haction with ⟨⟨file', place⟩, hfile', hcontent⟩ | ⟨entry, hentry, hdelete⟩
  · have hmem' := List.fst_mem_of_mem_zipIdx hfile'
    have hfold : caseFoldPath P file'.path ≠ caseFoldPath P file.path := by
      have hsymm : Std.Symm fun x y : LocalFileSnapshot =>
          caseFoldPath P x.path ≠ caseFoldPath P y.path := ⟨fun _ _ h => h.symm⟩
      refine hfolds.forall hmem' hfile ?_
      -- the file itself has no action
      rintro rfl
      simp [planContent, hfound, hhash] at hcontent
    rw [foldedPath_of_planContent hcontent]
    refine ⟨?_, fun h => hfold (Option.some.inj h)⟩
    rcases of_planContent hcontent with ⟨found', hfound', -, rfl⟩ | ⟨-, rfl⟩
    · exact fun hid => hfold (folded_of_matches hs hlists hfound' hfound hid)
    · exact (createdFileId_ne (ne_newFileId hlists hfresh place) found
        (mem_of_remoteByPath hfound).1).symm
  · obtain ⟨hnot, rfl⟩ := of_planDelete hdelete
    refine ⟨?_, by simp [ForcePushAction.foldedPath]⟩
    intro hid
    obtain ⟨row, hrow, hlive, rfl, hfolded⟩ := row_of_remoteByPath hs hlists hfound
    obtain ⟨row', hrow', hlive', rfl⟩ := (mem_toRemoteSnapshots_iff hlists).mp hentry
    obtain rfl := eq_of_fileId hrow' hrow hlive' hlive hid
    rw [hasLocalPath, List.any_eq_false] at hnot
    have hpath : caseFoldPath P file.path = caseFoldPath P (remoteSnapshot row').path :=
      hfolded.symm.trans (hs.folded row' hrow hlive)
    exact hnot file hfile (by simpa using hpath)

/-- **A file with the content of the server is tracked exactly if the adoptions left its entry
there, under the vector of the server.** -/
theorem tracked_iff_adopted (hs : Consistent P vaultId s) (hlists : Lists vaultId s entries)
    (hfresh : FreshIds vaultId s index newFileId opIds)
    (hfolds : files.Pairwise fun x y => caseFoldPath P x.path ≠ caseFoldPath P y.path)
    {adopted : LocalIndex}
    (h : Pushed P vaultId s adopted
      (planForcePush P (toRemoteSnapshots entries) files newFileId).actions loop)
    {file : LocalFileSnapshot} (hfile : file ∈ files) {found : RemoteFileSnapshot}
    (hfound : remoteByPath P (toRemoteSnapshots entries) file.path = some found)
    (hhash : found.contentHash = some file.hash) :
    TracksServer P vaultId loop.engine.index loop.server file ↔
      ∃ entry, adopted.byFileId found.fileId = some entry ∧ entry.deleted = false ∧
        entry.path = file.path ∧
        VersionVector.equals entry.appliedContentVV found.contentVV = true := by
  have huntouched := untouched_of_current hs hlists hfresh hfolds hfile hfound hhash
  obtain ⟨row, hrow, hlive, rfl, hfolded⟩ := row_of_remoteByPath hs hlists hfound
  rw [← hfolded] at huntouched
  have hfind := h.find_of_untouched hs hrow hlive
    (fun action haction => (huntouched action haction).1)
    fun action haction => (huntouched action haction).2
  rw [hfolded] at hfind
  have hentries := h.entries (remoteSnapshot row).fileId
    fun action haction => (huntouched action haction).1
  constructor
  · rintro ⟨entry, hentry, hentryLive, hpath, row', hrow', hid, hvv⟩
    rw [hfind] at hrow'
    obtain rfl := Option.some.inj hrow'
    refine ⟨entry, ?_, hentryLive, hpath, hvv⟩
    rw [← hentries]
    exact Table.get?_eq_some_iff.mpr ⟨hentry, hid⟩
  · rintro ⟨entry, hentry, hentryLive, hpath, hvv⟩
    rw [← hentries] at hentry
    obtain ⟨hmem, hid⟩ := Table.get?_eq_some_iff.mp hentry
    exact ⟨entry, hmem, hentryLive, hpath, row, hfind, hid, hvv⟩

/-- The state before the first action. -/
theorem pushed_start (hs : Consistent P vaultId s) {e : Engine} (hindex : e.index = index) :
    Pushed P vaultId s index [] { engine := e, server := s } where
  rows _ _ := rfl
  entries _ _ := by rw [hindex]
  settled := by simp
  deletes := by simp
  acks := hs.acks

/-- The state after a push that succeeds. -/
theorem pushed_of_forcePush {w w' : VaultWatcher} {now : Time} {serverNow : FileOp → Time}
    {uuid : FileOp → Uuid} {userId : Option String} {created updated deleted adopted : ℕ}
    (hs : Consistent P cfg.vaultId s) (hlists : Lists cfg.vaultId s entries)
    (hfiles : Snapshotted P w.engine.index files)
    (hfresh : FreshIds cfg.vaultId s w.engine.index newFileId opIds)
    (hfolds : files.Pairwise fun x y => caseFoldPath P x.path ≠ caseFoldPath P y.path)
    (hok : forcePush P cfg now (serveForced P serverNow uuid userId) newFileId opIds entries files w
      s = (.ok created updated deleted adopted, w', loop)) :
    Pushed P cfg.vaultId s
      (files.foldl (adoptFile P now (toRemoteSnapshots entries)) w.engine.index)
      (planForcePush P (toRemoteSnapshots entries) files newFileId).actions loop := by
  unfold forcePush at hok
  split at hok
  · cases (Prod.mk.inj hok).1
  split at hok
  · cases (Prod.mk.inj hok).1
  split at hok
  · cases (Prod.mk.inj hok).1
  dsimp only at hok
  rw [Prod.mk.injEq, Prod.mk.injEq] at hok
  obtain ⟨hresult, -, hloop⟩ := hok
  rw [foldl_adopt] at hresult hloop
  have hactions := map_fst_numberedActions (P := P) newFileId opIds entries files
  rw [← hactions, ← List.nil_append (List.map _ _)]
  refine pushed_pushActions (pushed_start hs rfl) ?_ ?_ ?_ ?_ (Prod.ext hresult hloop)
  · intro action haction
    have hmem := List.mem_map_of_mem (f := Prod.fst) haction
    rw [hactions] at hmem
    exact planned_actions hs hlists hfiles hfresh _ hmem
  · rw [List.nil_append, hactions]
    exact apart_actions hs hlists hfiles hfresh hfolds
  · intro action haction
    obtain ⟨numbered, -, rfl⟩ := List.mem_map.mp haction
    exact hfresh.ops numbered.2
  · have hplaces := pairwise_zipIdx (List.pairwise_of_forall (fun _ _ => True.intro)
      (l := (planForcePush P (toRemoteSnapshots entries) files newFileId).actions)) 0
    refine List.pairwise_map.mpr (hplaces.imp ?_)
    intro a b h hid
    exact h.2 (hfresh.opIds (Subtype.ext hid))

/-- The watcher has the index of the loop. -/
theorem index_of_forcePush {S : Type} {serve : FileOp → S → ForcedAnswer × S} {server : S}
    {w w' : VaultWatcher} {now : Time} {loop : ForceLoop S}
    {created updated deleted adopted : ℕ}
    (hok : forcePush P cfg now serve newFileId opIds entries files w server
      = (.ok created updated deleted adopted, w', loop)) :
    w'.engine.index = loop.engine.index := by
  unfold forcePush at hok
  split at hok
  · cases (Prod.mk.inj hok).1
  split at hok
  · cases (Prod.mk.inj hok).1
  split at hok
  · cases (Prod.mk.inj hok).1
  dsimp only at hok
  rw [Prod.mk.injEq, Prod.mk.injEq] at hok
  obtain ⟨-, rfl, rfl⟩ := hok
  rfl

/-- A relation holds along a list if it holds from each place on. -/
theorem pairwise_iff_append {α : Type*} {R : α → α → Prop} {l : List α} :
    l.Pairwise R ↔ ∀ before x after, l = before ++ x :: after → ∀ y ∈ after, R x y := by
  constructor
  · rintro h before x after rfl
    exact (List.pairwise_cons.mp (List.pairwise_append.mp h).2.1).1
  · intro h
    induction l with
    | nil => exact List.Pairwise.nil
    | cons x l ih =>
      refine List.pairwise_cons.mpr ⟨h [] x l rfl, ih ?_⟩
      intro before y after heq
      exact h (x :: before) y after (by rw [heq, List.cons_append])

/-- **What the adoptions leave under the id of the server**: the entry that was there, or the one
that the file is given, unless a later file gives the id up. -/
theorem adopted_iff (hs : Consistent P vaultId s) (hlists : Lists vaultId s entries)
    (hfiles : Snapshotted P index files)
    (hfolds : files.Pairwise fun x y => caseFoldPath P x.path ≠ caseFoldPath P y.path)
    {before after : List LocalFileSnapshot} {file : LocalFileSnapshot} (now : Time)
    (hsplit : files = before ++ file :: after) {found : RemoteFileSnapshot}
    (hfound : remoteByPath P (toRemoteSnapshots entries) file.path = some found) :
    (∃ entry, (files.foldl (adoptFile P now (toRemoteSnapshots entries)) index).byFileId
        found.fileId = some entry ∧ entry.deleted = false ∧ entry.path = file.path ∧
        VersionVector.equals entry.appliedContentVV found.contentVV = true) ↔
      (file.fileId = some found.fileId →
        ∀ entry, index.byFileId found.fileId = some entry →
          VersionVector.equals entry.appliedContentVV found.contentVV = true) ∧
      (Takes P (toRemoteSnapshots entries) found.fileId file →
        ∀ y ∈ after, ¬ GivesUp P (toRemoteSnapshots entries) found.fileId y) := by
  have hmem : file ∈ files := by rw [hsplit]; simp
  have hnamed : found.fileId ≠ "" := by
    obtain ⟨row, hrow, -, rfl, -⟩ := row_of_remoteByPath hs hlists hfound
    exact hs.named row hrow
  have hsymm : Std.Symm fun x y : LocalFileSnapshot =>
      caseFoldPath P x.path ≠ caseFoldPath P y.path := ⟨fun _ _ h => h.symm⟩
  -- two files that the server has under one id would have one folded path
  have hothers : ∀ y ∈ files, y ≠ file →
      ¬ Takes P (toRemoteSnapshots entries) found.fileId y := by
    rintro y hy hne ⟨found', hfound', hid, -⟩
    exact hfolds.forall hy hmem hne (folded_of_matches hs hlists hfound' hfound hid)
  by_cases hown : file.fileId = some found.fileId
  · -- the file has the id, so none is given it and none gives it up
    have htakes : ∀ y ∈ files, ¬ Takes P (toRemoteSnapshots entries) found.fileId y := by
      intro y hy
      by_cases hne : y = file
      · rintro ⟨-, -, -, hnot⟩
        exact hnot (hne ▸ hown)
      · exact hothers y hy hne
    obtain ⟨entry, hbyPath, hid⟩ := Option.map_eq_some_iff.mp
      ((hfiles.fileId file hmem).symm.trans hown)
    have hentry := List.mem_of_find?_eq_some hbyPath
    have hentryPath := List.find?_some hbyPath
    rw [decide_eq_true_eq] at hentryPath
    -- the index has one entry for the id, at the path of this file
    have hgives : ∀ y ∈ files, ¬ GivesUp P (toRemoteSnapshots entries) found.fileId y := by
      rintro y hy ⟨howned, found', hfound', hne⟩
      obtain ⟨entry', hbyPath', hid'⟩ := Option.map_eq_some_iff.mp
        ((hfiles.fileId y hy).symm.trans howned)
      have hentryPath' := List.find?_some hbyPath'
      rw [decide_eq_true_eq] at hentryPath'
      have hsame : entry = entry' := Table.eq_of_key_eq hentry
        (List.mem_of_find?_eq_some hbyPath') (hid.trans hid'.symm)
      have hpath : y.path = file.path := by rw [← hentryPath.1, ← hentryPath'.1, hsame]
      rw [hpath, hfound] at hfound'
      exact hne (congrArg _ (Option.some.inj hfound').symm)
    have hget : index.byFileId found.fileId = some entry :=
      Table.get?_eq_some_iff.mpr ⟨hentry, hid⟩
    rw [(byFileId_foldl_adoptFile now index hnamed htakes).1 hgives, hget]
    constructor
    · rintro ⟨entry', hsome, -, -, hvv⟩
      obtain rfl := Option.some.inj hsome
      refine ⟨fun _ entry' hentry' => ?_, fun htaken => absurd htaken (htakes file hmem)⟩
      rwa [← Option.some.inj hentry']
    · rintro ⟨hcurrent, -⟩
      exact ⟨entry, rfl, hentryPath.2, hentryPath.1, hcurrent hown entry rfl⟩
  · -- it is given the id, and keeps it if no later file gives it up
    have hafter : ∀ y ∈ after, ¬ Takes P (toRemoteSnapshots entries) found.fileId y := by
      intro y hy
      refine hothers y (by rw [hsplit]; simp [hy]) ?_
      rintro rfl
      exact pairwise_iff_append.mp hfolds before y after hsplit y hy rfl
    obtain ⟨hkept, hlost⟩ := byFileId_adopted now index before hnamed hfound hown hafter
    rw [← hsplit] at hkept hlost
    constructor
    · rintro ⟨entry, hentry, -⟩
      refine ⟨fun h => absurd h hown, fun _ y hy hgives => ?_⟩
      rw [hlost ⟨y, hy, hgives⟩] at hentry
      cases hentry
    · rintro ⟨-, hordered⟩
      refine ⟨_, hkept (hordered ⟨found, hfound, rfl, hown⟩), rfl, rfl, ?_⟩
      rw [LocalIndex.adoptedEntry, VersionVector.equals, VersionVector.dominates_refl,
        Bool.and_self]

/-- **A push that succeeds leaves an index that agrees with the server exactly if it settles**:
no two files have one folded path, no file that is left alone is indexed under another vector
than that of the server, and no id that such a file is given is given up after it. -/
theorem agreesWithServer_iff_settles (P : Platform) (cfg : ClientConfig) (now : Time)
    (serverNow : FileOp → Time) (uuid : FileOp → Uuid) (userId : Option String)
    (newFileId : ℕ → String) (opIds : ℕ → Uuid) (entries : List ManifestEntry)
    (files : List LocalFileSnapshot) (w w' : VaultWatcher) (s : Store) (loop : ForceLoop Store)
    (created updated deleted adopted : ℕ) (hs : Consistent P cfg.vaultId s)
    (hlists : Lists cfg.vaultId s entries) (hfiles : Snapshotted P w.engine.index files)
    (hfresh : FreshIds cfg.vaultId s w.engine.index newFileId opIds)
    (hok : forcePush P cfg now (serveForced P serverNow uuid userId) newFileId opIds entries files w
      s = (.ok created updated deleted adopted, w', loop)) :
    AgreesWithServer P cfg.vaultId files loop.sent w'.engine.index loop.server ↔
      Settles P (toRemoteSnapshots entries) files w.engine.index := by
  rw [index_of_forcePush hok]
  constructor
  · intro hagrees
    have hfolds : files.Pairwise fun x y => caseFoldPath P x.path ≠ caseFoldPath P y.path := by
      -- two files with one folded path would share the entry of the file of the server
      refine hfiles.paths.imp_of_mem ?_
      intro x y hx hy hne hfold
      obtain ⟨entry, hentry, -, hpath, row, hrow, hid, -⟩ := hagrees.tracked x hx
      obtain ⟨entry', hentry', -, hpath', row', hrow', hid', -⟩ := hagrees.tracked y hy
      rw [← hfold, hrow] at hrow'
      obtain rfl := Option.some.inj hrow'
      rw [Table.eq_of_key_eq hentry hentry' (hid.trans hid'.symm), hpath'] at hpath
      exact hne hpath.symm
    have hpushed := pushed_of_forcePush hs hlists hfiles hfresh hfolds hok
    refine ⟨hfolds, ?_, pairwise_iff_append.mpr ?_⟩
    · intro file hfile found hfound hhash
      obtain ⟨before, after, hsplit⟩ := List.append_of_mem hfile
      have hadopted := (tracked_iff_adopted hs hlists hfresh hfolds hpushed hfile hfound hhash).mp
        (hagrees.tracked file hfile)
      exact ((adopted_iff hs hlists hfiles hfolds now hsplit hfound).mp hadopted).1
    · intro before file after hsplit y hy found hfound hhash htakes
      have hfile : file ∈ files := by rw [hsplit]; simp
      have hadopted := (tracked_iff_adopted hs hlists hfresh hfolds hpushed hfile hfound hhash).mp
        (hagrees.tracked file hfile)
      exact ((adopted_iff hs hlists hfiles hfolds now hsplit hfound).mp hadopted).2 htakes y hy
  · rintro ⟨hfolds, hcurrent, hordered⟩
    have hpushed := pushed_of_forcePush hs hlists hfiles hfresh hfolds hok
    constructor
    · intro file hfile
      obtain ⟨before, after, hsplit⟩ := List.append_of_mem hfile
      by_cases hsame : ∃ found, remoteByPath P (toRemoteSnapshots entries) file.path = some found ∧
          found.contentHash = some file.hash
      · obtain ⟨found, hfound, hhash⟩ := hsame
        rw [tracked_iff_adopted hs hlists hfresh hfolds hpushed hfile hfound hhash,
          adopted_iff hs hlists hfiles hfolds now hsplit hfound]
        exact ⟨hcurrent file hfile found hfound hhash, fun htakes y hy =>
          pairwise_iff_append.mp hordered before file after hsplit y hy found hfound hhash htakes⟩
      · -- the file has an action
        obtain ⟨place, hplace⟩ := List.mem_iff_getElem?.mp hfile
        have hmem : ∀ action, planContent P (toRemoteSnapshots entries) (newFileId place) file
            = some action →
            action ∈ (planForcePush P (toRemoteSnapshots entries) files newFileId).actions :=
          fun action haction => List.mem_append_left _
            (List.mem_filterMap.mpr ⟨(file, place), List.mk_mem_zipIdx_iff_getElem?.mpr hplace,
              haction⟩)
        have hplanned := planned_actions hs hlists hfiles hfresh
        have hapart := apart_actions hs hlists hfiles hfresh hfolds
        cases hfound : remoteByPath P (toRemoteSnapshots entries) file.path with
        | none =>
          have hcontent : planContent P (toRemoteSnapshots entries) (newFileId place) file
              = some (.content .create
                (createdFileId (toRemoteSnapshots entries) (newFileId place) file) file.path
                file.type VersionVector.emptyVV) := by
            simp only [planContent, hfound]
          exact hpushed.tracked_of_mem hs hplanned hapart (hmem _ hcontent)
        | some found =>
          have hdiffers : found.contentHash ≠ some file.hash := fun h => hsame ⟨found, hfound, h⟩
          have hcontent : planContent P (toRemoteSnapshots entries) (newFileId place) file
              = some (.content .update found.fileId file.path file.type found.contentVV) := by
            simp only [planContent, hfound, hdiffers, if_false]
          exact hpushed.tracked_of_mem hs hplanned hapart (hmem _ hcontent)
    · intro op hop hdelete entry hentry hid
      obtain ⟨action, haction, hnone, hactionId⟩ := hpushed.deletes op hop hdelete
      have hsettled := hpushed.settled action haction
      cases action with
      | content mode fileId path type dominateVV => cases hnone
      | delete fileId path type =>
        exact hsettled.1 entry (Table.get?_eq_some_iff.mpr ⟨hentry, hid.trans hactionId.symm⟩)

end Push

/-! ### Ids that are exchanged -/

/-- The manifest of a server whose rows are all live. -/
theorem lists_manifest {vaultId : String} {s : Store}
    (hlive : ∀ row ∈ s.files.rows, LiveFile vaultId row) :
    Lists vaultId s (s.files.rows.map StoredFile.toManifestEntry) where
  mem entry := by
    rw [List.mem_map]
    constructor
    · rintro ⟨row, hrow, rfl⟩
      exact ⟨row, hrow, hlive row hrow, rfl⟩
    · rintro ⟨row, hrow, -, rfl⟩
      exact ⟨row, hrow, rfl⟩
  nodup := by
    refine List.Nodup.map_on ?_ (List.Nodup.of_map _ s.files.nodup)
    intro row hrow row' hrow' heq
    exact eq_of_fileId hrow hrow' (hlive row hrow) (hlive row' hrow')
      (congrArg ManifestEntry.fileId heq)

/-- A live note of the server. -/
def sampleRow (fileId path text : String) : StoredFile where
  fileId
  vaultId := "v"
  type := .note
  path
  pathNormalized := path
  pathClock := { lamport := 1, deviceId := "d2" }
  contentVV := sampleVV "d2" 1
  contentHash := some (contentHashText samplePlatform text)
  size := none
  blobRef := none
  contentEncoding := none
  deleteVV := none
  deleted := false
  deletedAt := none
  epoch := 0
  conflictId := none
  activeUntil := none
  updatedAt := 1

/-- A server with these files. -/
def sampleServer (rows : List StoredFile) : Store :=
  { sampleStore with files := rows.foldl Table.set Table.empty }

/-- The entry of a note, under the vector that the server has. -/
def sampleIndexed (fileId path : String) : FileIndexEntry where
  fileId
  path
  pathNormalized := path
  type := .note
  contentHash := none
  size := 3
  appliedContentVV := sampleVV "d2" 1
  isDir := false
  mtime := 1

/-- A connected device with the entries and the notes. -/
def samplePushing (index : List FileIndexEntry) (notes : List (String × String)) :
    VaultWatcher where
  engine :=
    { index := { device := { deviceId := "d1", vaultId := some "v" }
                 files := index.foldl Table.set Table.empty }
      outbox := OutboxManager.create "d1" 1 []
      vault := notes.foldl (fun vault note => vault.writeText note.1 note.2) Table.empty
      transportReady := true
      handshakeComplete := true }

/-- The device that pushes. -/
def samplePushConfig : ClientConfig := { sampleConfig with deviceId := "d1" }

/-- The snapshot of a note. -/
def sampleSnapshot (fileId : Option String) (path text : String) : LocalFileSnapshot where
  path
  hash := contentHashText samplePlatform text
  type := .note
  fileId

/-- Ids that differ in their lengths. -/
def sampleLongId (place : ℕ) : Uuid :=
  ⟨String.ofList (List.replicate (place + 1) 'x'), fun h => absurd (congrArg String.length h) (by
    simp)⟩

theorem sampleLongId_injective : Function.Injective sampleLongId := by
  intro n m h
  have hlength := congrArg (fun id : Uuid => id.1.length) h
  simpa [sampleLongId] using hlength

theorem ne_sampleLongId {id : String} (h : id.toList.head? ≠ some 'x') (place : ℕ) :
    id ≠ (sampleLongId place).1 := by
  rintro rfl
  simp [sampleLongId, List.replicate_succ] at h

/-- A push to the sample server. -/
def samplePush (w : VaultWatcher) (files : List LocalFileSnapshot) (s : Store) :
    ForcePushResult × VaultWatcher × ForceLoop Store :=
  forcePush samplePlatform samplePushConfig 1
    (serveForced samplePlatform (fun _ => 1) (fun _ => sampleUuid) (some "u"))
    (fun place => (sampleLongId place).1) sampleLongId
    (s.files.rows.map StoredFile.toManifestEntry) files w s

/-- The notes of a device, one under an id of its own and one that was not synced. -/
def sampleLocal : List LocalFileSnapshot :=
  [sampleSnapshot (some "f9") "a.md" "one", sampleSnapshot (some "f2") "b.md" "two",
    sampleSnapshot none "c.md" "one"]

/-- A device whose index has another id for one of its files. -/
def sampleLocalDevice : VaultWatcher :=
  samplePushing [sampleIndexed "f9" "a.md", sampleIndexed "f2" "b.md"]
    [("a.md", "one"), ("b.md", "two"), ("c.md", "one")]

/-- The files of the server. -/
def sampleRemote : Store :=
  sampleServer [sampleRow "f1" "a.md" "one", sampleRow "f2" "b.md" "one",
    sampleRow "f3" "d.md" "two"]

/-- A push that adopts an id, and creates, updates and deletes a file. -/
theorem agreesWithServer_sampleRemote :
    localSnapshots samplePlatform samplePushConfig sampleLocalDevice = some sampleLocal ∧
      (samplePush sampleLocalDevice sampleLocal sampleRemote).1 = .ok 1 1 1 1 ∧
      AgreesWithServer samplePlatform "v" sampleLocal
        (samplePush sampleLocalDevice sampleLocal sampleRemote).2.2.sent
        (samplePush sampleLocalDevice sampleLocal sampleRemote).2.1.engine.index
        (samplePush sampleLocalDevice sampleLocal sampleRemote).2.2.server := by
  have hsnapshots : localSnapshots samplePlatform samplePushConfig sampleLocalDevice
      = some sampleLocal := by decide +kernel
  have hresult : (samplePush sampleLocalDevice sampleLocal sampleRemote).1 = .ok 1 1 1 1 := by
    decide +kernel
  refine ⟨hsnapshots, hresult, ?_⟩
  refine (agreesWithServer_iff_settles samplePlatform samplePushConfig 1 (fun _ => 1)
    (fun _ => sampleUuid) (some "u") _ sampleLongId _ sampleLocal sampleLocalDevice _ sampleRemote _
    1 1 1 1 ?_ (lists_manifest ?_) ?_ ?_ (Prod.ext hresult rfl)).mpr ?_
  · constructor
    · decide +kernel
    · decide +kernel
    · decide +kernel
    · intro op hop
      cases hop
  · decide +kernel
  · exact snapshotted_localSnapshots (by decide +kernel) hsnapshots
  · have hrows : ∀ row ∈ sampleRemote.files.rows, row.fileId.toList.head? ≠ some 'x' := by
      decide +kernel
    have hentries : ∀ entry ∈ sampleLocalDevice.engine.index.files.rows,
        entry.fileId.toList.head? ≠ some 'x' := by decide +kernel
    constructor
    · intro place
      refine Table.get?_eq_none_iff.mpr fun row hrow hkey => ?_
      exact ne_sampleLongId (hrows row hrow) place (congrArg Prod.snd hkey)
    · intro place entry hentry
      exact ne_sampleLongId (hentries entry hentry) place
    · exact fun n m h => sampleLongId_injective (Subtype.ext h)
    · intro place
      rfl
    · exact sampleLongId_injective
  · -- no file has the content and the id of the server, and no id is given up
    have hcurrent : ∀ file ∈ sampleLocal,
        Option.all (fun found => decide (found.contentHash = some file.hash →
          file.fileId ≠ some found.fileId)) (remoteByPath samplePlatform (toRemoteSnapshots
            (sampleRemote.files.rows.map StoredFile.toManifestEntry)) file.path) = true := by
      decide +kernel
    have hordered : sampleLocal.Pairwise fun x y =>
        Option.all (fun found => decide (y.fileId ≠ some found.fileId)) (remoteByPath
          samplePlatform (toRemoteSnapshots
            (sampleRemote.files.rows.map StoredFile.toManifestEntry)) x.path) = true := by
      decide +kernel
    refine ⟨by decide +kernel, ?_, hordered.imp ?_⟩
    · intro file hfile found hfound hhash hid
      have hall := (Option.all_eq_true _ _).mp (hcurrent file hfile) found hfound
      rw [decide_eq_true_eq] at hall
      exact absurd hid (hall hhash)
    · intro x y hall found hfound _ _ hgives
      have hne := (Option.all_eq_true _ _).mp hall found hfound
      rw [decide_eq_true_eq] at hne
      exact hne hgives.1

/-- Two notes, with the ids of the index. -/
def sampleExchanged : List LocalFileSnapshot :=
  [sampleSnapshot (some "f1") "a.md" "one", sampleSnapshot (some "f2") "b.md" "two"]

/-- A device whose index has the ids of two files exchanged. -/
def sampleExchangedDevice : VaultWatcher :=
  samplePushing [sampleIndexed "f1" "a.md", sampleIndexed "f2" "b.md"]
    [("a.md", "one"), ("b.md", "two")]

/-- The server has each under the id of the other. -/
def sampleExchangedRemote : Store :=
  sampleServer [sampleRow "f2" "a.md" "one", sampleRow "f1" "b.md" "two"]

/-- **Where two notes have their ids exchanged, the first has no entry after the push**: the one
it is given is removed when the second gives its id up. -/
theorem not_agreesWithServer_exchanged :
    localSnapshots samplePlatform samplePushConfig sampleExchangedDevice = some sampleExchanged ∧
      (samplePush sampleExchangedDevice sampleExchanged sampleExchangedRemote).1
        = .ok 0 0 0 2 ∧
      ¬ AgreesWithServer samplePlatform "v" sampleExchanged
        (samplePush sampleExchangedDevice sampleExchanged sampleExchangedRemote).2.2.sent
        (samplePush sampleExchangedDevice sampleExchanged sampleExchangedRemote).2.1.engine.index
        (samplePush sampleExchangedDevice sampleExchanged sampleExchangedRemote).2.2.server := by
  refine ⟨by decide +kernel, by decide +kernel, fun hagrees => ?_⟩
  obtain ⟨entry, hentry, -, hpath, -⟩ := hagrees.tracked _ (List.mem_cons_self ..)
  have hnone : ∀ entry ∈ (samplePush sampleExchangedDevice sampleExchanged
      sampleExchangedRemote).2.1.engine.index.files.rows, entry.path ≠ "a.md" := by
    decide +kernel
  exact hnone entry hentry hpath

end ObsidianSync
