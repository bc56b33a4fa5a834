import ObsidianSync.Client.ForceScope

/-!
# What a force push plan does

The actions of a plan, carried out on the files of the server one after the other: a
create adds a file, an update replaces the content of one, a delete removes one, and an
adoption changes nothing.

## Main definitions

* `executeAction`, `executePlan` — the files of the server after an action, and after a
  plan.
* `UnusedIds` — what `newFileId` gives is new.
* `MirrorsLocal` — the server has the paths and hashes of the device, and the actions do
  not clash.

## Main results

* `execute_contents` — the files after the loop over the files of the device.
* `mirrorsLocal_planForcePush` — a plan mirrors the device.
-/

namespace ObsidianSync

variable (P : Platform)

/-! ### Carrying out a plan -/

/-- The hash of the content that an action reads at a path. -/
def localHash (files : List LocalFileSnapshot) (path : String) : Option String :=
  (files.find? fun file => file.path = path).map LocalFileSnapshot.hash

/-- The files of the server after an action. -/
def executeAction (files : List LocalFileSnapshot) (rows : List RemoteFileSnapshot) :
    ForcePushAction → List RemoteFileSnapshot
  | .content .create fileId path type dominateVV =>
    rows ++ [{ fileId, path, contentHash := localHash files path, contentVV := dominateVV, type }]
  | .content .update fileId path _ _ =>
    rows.map fun row =>
      if row.fileId = fileId then { row with contentHash := localHash files path } else row
  | .delete fileId _ _ => rows.filter fun row => row.fileId ≠ fileId

/-- The files of the server after all actions of a plan. -/
def executePlan (files : List LocalFileSnapshot) (rows : List RemoteFileSnapshot)
    (plan : ForcePushPlan) : List RemoteFileSnapshot :=
  plan.actions.foldl (executeAction files) rows

/-- `newFileId` never gives an id twice, or one that is in use. -/
structure UnusedIds (files : List LocalFileSnapshot) (remote : List RemoteFileSnapshot)
    (newFileId : ℕ → String) : Prop where
  injective : Function.Injective newFileId
  remote : ∀ i, ∀ entry ∈ remote, entry.fileId ≠ newFileId i
  localId : ∀ i, ∀ file ∈ files, file.fileId ≠ some (newFileId i)

/-- The plan makes the map from folded paths to hashes the one of the device; no two of its actions
are about one id, and no create is about an id that the server has. -/
structure MirrorsLocal (files : List LocalFileSnapshot) (remote : List RemoteFileSnapshot)
    (plan : ForcePushPlan) : Prop where
  paths : ((executePlan files remote plan).map fun row => caseFoldPath P row.path).Nodup
  hashes : ∀ key hash,
    (∃ row ∈ executePlan files remote plan,
      caseFoldPath P row.path = key ∧ row.contentHash = hash) ↔
    ∃ file ∈ files, caseFoldPath P file.path = key ∧ some file.hash = hash
  ids : (plan.actions.map ForcePushAction.fileId).Nodup
  creates : ∀ action ∈ plan.actions, ∀ fileId path type dominateVV,
    action = .content .create fileId path type dominateVV →
      ∀ entry ∈ remote, entry.fileId ≠ fileId

/-! ### The loop over the files of the device -/

section

variable {files fs : List LocalFileSnapshot} {remote : List RemoteFileSnapshot}

/-- A file of the server with the content of the file at its path, if there is one. -/
def mirrored (fs : List LocalFileSnapshot) (entry : RemoteFileSnapshot) : RemoteFileSnapshot :=
  match fs.find? fun file => caseFoldPath P file.path = caseFoldPath P entry.path with
  | some file => { entry with contentHash := some file.hash }
  | none => entry

/-- The file that a create adds. -/
def createdRow (remote : List RemoteFileSnapshot) (newFileId : String)
    (file : LocalFileSnapshot) : Option RemoteFileSnapshot :=
  match remoteByPath P remote file.path with
  | some _ => none
  | none =>
    some { fileId := createdFileId remote newFileId file, path := file.path
           contentHash := some file.hash, contentVV := VersionVector.emptyVV, type := file.type }

theorem fileId_mirrored (entry : RemoteFileSnapshot) :
    (mirrored P fs entry).fileId = entry.fileId ∧ (mirrored P fs entry).path = entry.path := by
  unfold mirrored
  split <;> exact ⟨rfl, rfl⟩

theorem remoteByPath_eq_none {path : String} :
    remoteByPath P remote path = none ↔
      ∀ entry ∈ remote, caseFoldPath P entry.path ≠ caseFoldPath P path := by
  simp [remoteByPath]

/-- What is created, from the file it is created for. -/
theorem of_createdRow {newId : String} {file : LocalFileSnapshot} {row : RemoteFileSnapshot}
    (h : createdRow P remote newId file = some row) :
    remoteByPath P remote file.path = none ∧ row.fileId = createdFileId remote newId file ∧
      row.path = file.path ∧ row.contentHash = some file.hash := by
  unfold createdRow at h
  split at h
  · cases h
  · next hnone =>
    obtain rfl := Option.some.inj h
    exact ⟨hnone, rfl, rfl, rfl⟩

/-- A created file has an id that the server does not. -/
theorem fileId_createdRow_ne {newFileId : ℕ → String} (hfresh : UnusedIds files remote newFileId)
    {row : RemoteFileSnapshot}
    (h : row ∈ fs.zipIdx.filterMap fun file => createdRow P remote (newFileId file.2) file.1) :
    ∀ entry ∈ remote, row.fileId ≠ entry.fileId := by
  obtain ⟨⟨file, place⟩, -, hrow⟩ := List.mem_filterMap.mp h
  intro entry hentry
  rw [(of_createdRow P hrow).2.1]
  exact (createdFileId_ne (hfresh.remote place) entry hentry).symm

/-- The content read at the path of a file is that of the file. -/
theorem localHash_of_mem (hpaths : (files.map fun file => caseFoldPath P file.path).Nodup)
    {file : LocalFileSnapshot} (h : file ∈ files) : localHash files file.path = some file.hash := by
  have hsome : (files.find? fun other => other.path = file.path).isSome = true :=
    List.find?_isSome.mpr ⟨file, h, decide_eq_true rfl⟩
  obtain ⟨other, hother⟩ := Option.isSome_iff_exists.mp hsome
  have hpath := List.find?_some hother
  rw [decide_eq_true_iff] at hpath
  obtain rfl : other = file := List.inj_on_of_nodup_map hpaths (List.mem_of_find?_eq_some hother) h
    (congrArg (caseFoldPath P) hpath)
  rw [localHash, hother, Option.map_some]

/-- Another file of the device changes nothing of what is mirrored, unless it is at the path. -/
theorem mirrored_concat {file : LocalFileSnapshot} (entry : RemoteFileSnapshot)
    (h : caseFoldPath P file.path ≠ caseFoldPath P entry.path) :
    mirrored P (fs ++ [file]) entry = mirrored P fs entry := by
  simp [mirrored, List.find?_append, h]

/-- The file at the path of the entry is mirrored in it. -/
theorem mirrored_concat_of_eq {file : LocalFileSnapshot} {entry : RemoteFileSnapshot}
    (h : caseFoldPath P file.path = caseFoldPath P entry.path)
    (hnew : ∀ other ∈ fs, caseFoldPath P other.path ≠ caseFoldPath P file.path) :
    mirrored P (fs ++ [file]) entry = { entry with contentHash := some file.hash } ∧
      mirrored P fs entry = entry := by
  have hnone : (fs.find? fun other => caseFoldPath P other.path = caseFoldPath P entry.path) =
      none := by
    rw [List.find?_eq_none]
    exact fun other hother hsame => hnew other hother ((of_decide_eq_true hsame).trans h.symm)
  simp [mirrored, List.find?_append, hnone, h]

/-- **The files of the server after the loop over some files of the device**: those that were there,
with what is at their paths, and the created ones.  By induction on the files, the last first. -/
theorem execute_contents {newFileId : ℕ → String}
    (hpaths : (files.map fun file => caseFoldPath P file.path).Nodup)
    (hremoteIds : (remote.map RemoteFileSnapshot.fileId).Nodup)
    (hremotePaths : (remote.map fun entry => caseFoldPath P entry.path).Nodup)
    (hfresh : UnusedIds files remote newFileId) (hfs : fs <+: files) :
    (fs.zipIdx.filterMap fun file => planContent P remote (newFileId file.2) file.1).foldl
        (executeAction files) remote =
      remote.map (mirrored P fs) ++
        fs.zipIdx.filterMap fun file => createdRow P remote (newFileId file.2) file.1 := by
  induction fs using List.reverseRecOn with
  | nil =>
    have hid : remote.map (mirrored P []) = remote :=
      (List.map_congr_left fun entry _ => rfl).trans (List.map_id remote)
    simp [hid]
  | append_singleton fs file ih =>
    have hprefix := (List.prefix_append fs [file]).trans hfs
    have hmem : file ∈ files := hfs.subset (by simp)
    have hnew : ∀ other ∈ fs, caseFoldPath P other.path ≠ caseFoldPath P file.path := by
      have hnodup := hpaths.sublist (hfs.sublist.map _)
      rw [List.map_append, List.map_singleton] at hnodup
      intro other hother heq
      exact (List.nodup_append'.mp hnodup).2.2 (List.mem_map_of_mem hother) (by simp [heq])
    simp only [List.zipIdx_append, List.filterMap_append, List.foldl_append, ih hprefix]
    generalize hcreated : (fs.zipIdx.filterMap fun file =>
      createdRow P remote (newFileId file.2) file.1) = created
    cases hmatch : remoteByPath P remote file.path with
    | none =>
      have hsame : remote.map (mirrored P (fs ++ [file])) = remote.map (mirrored P fs) :=
        List.map_congr_left fun entry hentry => mirrored_concat P entry fun heq =>
          (remoteByPath_eq_none P).mp hmatch entry hentry heq.symm
      simp [planContent, createdRow, hmatch, executeAction, hsame, localHash_of_mem P hpaths hmem]
    | some found =>
      obtain ⟨hfound, hpath⟩ := mem_of_remoteByPath hmatch
      obtain ⟨hset, hold⟩ := mirrored_concat_of_eq P hpath.symm hnew
      have hother : ∀ entry ∈ remote, entry ≠ found →
          mirrored P (fs ++ [file]) entry = mirrored P fs entry := fun entry hentry hne =>
        mirrored_concat P entry fun heq =>
          hne (List.inj_on_of_nodup_map hremotePaths hentry hfound (heq.symm.trans hpath.symm))
      by_cases hhash : found.contentHash = some file.hash
      · -- nothing to do: the file is mirrored already
        have hsame : remote.map (mirrored P (fs ++ [file])) = remote.map (mirrored P fs) := by
          refine List.map_congr_left fun entry hentry => ?_
          by_cases heq : entry = found
          · rw [heq, hset, hold, ← hhash]
          · exact hother entry hentry heq
        simp [planContent, createdRow, hmatch, hhash, hsame]
      · have hmap : (remote.map (mirrored P fs)).map (fun row =>
            if row.fileId = found.fileId then
              { row with contentHash := localHash files file.path } else row) =
            remote.map (mirrored P (fs ++ [file])) := by
          rw [List.map_map]
          refine List.map_congr_left fun entry hentry => ?_
          rw [Function.comp_apply, (fileId_mirrored P entry).1]
          by_cases heq : entry = found
          · rw [heq, if_pos rfl, hold, hset, localHash_of_mem P hpaths hmem]
          · rw [hother entry hentry heq, if_neg fun hid =>
              heq (List.inj_on_of_nodup_map hremoteIds hentry hfound hid)]
        -- a created file has an id of its own
        have hkept : created.map (fun row =>
            if row.fileId = found.fileId then
              { row with contentHash := localHash files file.path } else row) = created := by
          refine (List.map_congr_left fun row hrow => ?_).trans (List.map_id created)
          rw [← hcreated] at hrow
          exact if_neg (fileId_createdRow_ne P hfresh hrow found hfound)
        simp [planContent, createdRow, hmatch, hhash, executeAction, hmap, hkept]

/-- The loop over the files of the server.  By induction on these. -/
theorem execute_deletes (entries rows : List RemoteFileSnapshot) :
    (entries.filterMap (planDelete P files)).foldl (executeAction files) rows =
      rows.filter fun row => entries.all fun entry =>
        hasLocalPath P files entry.path || row.fileId ≠ entry.fileId := by
  induction entries generalizing rows with
  | nil => simp
  | cons entry entries ih =>
    rw [List.filterMap_cons]
    cases hlocal : hasLocalPath P files entry.path with
    | true => simp [planDelete, hlocal, ih]
    | false =>
      simp only [planDelete, hlocal, Bool.false_eq_true, if_false, List.foldl_cons, ih,
        executeAction, List.filter_filter, List.all_cons, Bool.false_or]
      exact List.filter_congr fun row _ => Bool.and_comm _ _

/-- The files that are created. -/
def createdRows (files : List LocalFileSnapshot) (remote : List RemoteFileSnapshot)
    (newFileId : ℕ → String) : List RemoteFileSnapshot :=
  files.zipIdx.filterMap fun file => createdRow P remote (newFileId file.2) file.1

/-- **The files of the server after a plan**: those with a path of the device, with its content,
and the created ones. -/
theorem executePlan_eq {newFileId : ℕ → String}
    (hpaths : (files.map fun file => caseFoldPath P file.path).Nodup)
    (hremoteIds : (remote.map RemoteFileSnapshot.fileId).Nodup)
    (hremotePaths : (remote.map fun entry => caseFoldPath P entry.path).Nodup)
    (hfresh : UnusedIds files remote newFileId) :
    executePlan files remote (planForcePush P remote files newFileId) =
      (remote.filter fun entry => hasLocalPath P files entry.path).map (mirrored P files) ++
        createdRows P files remote newFileId := by
  have hkept : ∀ entry ∈ remote, (remote.all fun other =>
      hasLocalPath P files other.path || (mirrored P files entry).fileId ≠ other.fileId) =
        hasLocalPath P files entry.path := by
    intro entry hentry
    rw [(fileId_mirrored P entry).1, Bool.eq_iff_iff, List.all_eq_true]
    constructor
    · intro h
      simpa using h entry hentry
    · intro h other hother
      by_cases hid : entry.fileId = other.fileId
      · rw [← List.inj_on_of_nodup_map hremoteIds hentry hother hid, h, Bool.true_or]
      · simp [hid]
  have hcreated : ∀ row ∈ createdRows P files remote newFileId, (remote.all fun other =>
      hasLocalPath P files other.path || row.fileId ≠ other.fileId) = true := by
    intro row hrow
    rw [List.all_eq_true]
    intro other hother
    simp [fileId_createdRow_ne P hfresh hrow other hother]
  rw [executePlan, planForcePush, List.foldl_append,
    execute_contents P hpaths hremoteIds hremotePaths hfresh List.prefix_rfl, execute_deletes,
    List.filter_append]
  congr 1
  · rw [List.filter_map]
    exact congrArg _ (List.filter_congr hkept)
  · exact List.filter_eq_self.mpr hcreated

/-! ### The plan mirrors the device -/

theorem hasLocalPath_iff {path : String} : hasLocalPath P files path = true ↔
    ∃ file ∈ files, caseFoldPath P file.path = caseFoldPath P path := by
  simp [hasLocalPath]

theorem mem_createdRows {newFileId : ℕ → String} {row : RemoteFileSnapshot}
    (h : row ∈ createdRows P files remote newFileId) :
    ∃ file ∈ files, remoteByPath P remote file.path = none ∧ row.path = file.path ∧
      row.contentHash = some file.hash := by
  obtain ⟨⟨file, place⟩, hfile, hrow⟩ := List.mem_filterMap.mp h
  obtain ⟨hnone, -, hpath, hhash⟩ := of_createdRow P hrow
  exact ⟨file, List.fst_mem_of_mem_zipIdx hfile, hnone, hpath, hhash⟩

/-- The hash of a mirrored file. -/
theorem contentHash_mirrored (hpaths : (files.map fun file => caseFoldPath P file.path).Nodup)
    {file : LocalFileSnapshot} {entry : RemoteFileSnapshot} (hfile : file ∈ files)
    (h : caseFoldPath P file.path = caseFoldPath P entry.path) :
    (mirrored P files entry).contentHash = some file.hash := by
  have hsome : (files.find? fun other =>
      caseFoldPath P other.path = caseFoldPath P entry.path).isSome = true :=
    List.find?_isSome.mpr ⟨file, hfile, decide_eq_true h⟩
  obtain ⟨other, hother⟩ := Option.isSome_iff_exists.mp hsome
  have hpath := List.find?_some hother
  rw [decide_eq_true_iff] at hpath
  obtain rfl : other = file := List.inj_on_of_nodup_map hpaths (List.mem_of_find?_eq_some hother)
    hfile (hpath.trans h.symm)
  rw [mirrored, hother]

/-- Each path is there once. -/
theorem paths_executed {newFileId : ℕ → String}
    (hpaths : (files.map fun file => caseFoldPath P file.path).Nodup)
    (hremotePaths : (remote.map fun entry => caseFoldPath P entry.path).Nodup) :
    (((remote.filter fun entry => hasLocalPath P files entry.path).map (mirrored P files) ++
      createdRows P files remote newFileId).map fun row => caseFoldPath P row.path).Nodup := by
  rw [List.map_append, List.nodup_append']
  refine ⟨?_, ?_, ?_⟩
  · have hkeys : ((remote.filter fun entry => hasLocalPath P files entry.path).map
        (mirrored P files)).map (fun row => caseFoldPath P row.path) =
        (remote.filter fun entry => hasLocalPath P files entry.path).map
          fun entry => caseFoldPath P entry.path := by
      rw [List.map_map]
      exact List.map_congr_left fun entry _ =>
        congrArg (caseFoldPath P) (fileId_mirrored P entry).2
    rw [hkeys]
    exact hremotePaths.sublist (List.filter_sublist.map _)
  · rw [List.Nodup, List.pairwise_map, createdRows, List.pairwise_filterMap]
    refine (pairwise_zipIdx (List.pairwise_map.mp hpaths) 0).imp ?_
    intro x y hne row hrow row' hrow'
    rw [(of_createdRow P hrow).2.2.1, (of_createdRow P hrow').2.2.1]
    exact hne.1
  · -- what is created has a path that no file of the server has
    intro key hkept hcreated
    rw [List.map_map] at hkept
    obtain ⟨entry, hentry, rfl⟩ := List.mem_map.mp hkept
    obtain ⟨row, hrow, hkey⟩ := List.mem_map.mp hcreated
    obtain ⟨file, -, hnone, hpath, -⟩ := mem_createdRows P hrow
    rw [Function.comp_apply, (fileId_mirrored P entry).2, hpath] at hkey
    exact (remoteByPath_eq_none P).mp hnone entry (List.mem_filter.mp hentry).1 hkey.symm

/-- The hashes of the paths are those of the device. -/
theorem hashes_executed {newFileId : ℕ → String}
    (hpaths : (files.map fun file => caseFoldPath P file.path).Nodup) (key : String)
    (hash : Option String) :
    (∃ row ∈ (remote.filter fun entry => hasLocalPath P files entry.path).map
        (mirrored P files) ++ createdRows P files remote newFileId,
      caseFoldPath P row.path = key ∧ row.contentHash = hash) ↔
    ∃ file ∈ files, caseFoldPath P file.path = key ∧ some file.hash = hash := by
  constructor
  · rintro ⟨row, hrow, hkey, hhash⟩
    rcases List.mem_append.mp hrow with hkept | hcreated
    · obtain ⟨entry, hentry, rfl⟩ := List.mem_map.mp hkept
      obtain ⟨file, hfile, hsame⟩ := (hasLocalPath_iff P).mp (List.mem_filter.mp hentry).2
      rw [(fileId_mirrored P entry).2] at hkey
      exact ⟨file, hfile, hsame.trans hkey,
        (contentHash_mirrored P hpaths hfile hsame).symm.trans hhash⟩
    · obtain ⟨file, hfile, -, hpath, hcontent⟩ := mem_createdRows P hcreated
      exact ⟨file, hfile, (congrArg _ hpath.symm).trans hkey, hcontent.symm.trans hhash⟩
  · rintro ⟨file, hfile, hkey, hhash⟩
    cases hmatch : remoteByPath P remote file.path with
    | some found =>
      obtain ⟨hfound, hpath⟩ := mem_of_remoteByPath hmatch
      have hlocal := (hasLocalPath_iff P).mpr ⟨file, hfile, hpath.symm⟩
      refine ⟨mirrored P files found, List.mem_append_left _
        (List.mem_map_of_mem (List.mem_filter.mpr ⟨hfound, hlocal⟩)), ?_, ?_⟩
      · rw [(fileId_mirrored P found).2, hpath, hkey]
      · rw [contentHash_mirrored P hpaths hfile hpath.symm, hhash]
    | none =>
      obtain ⟨place, hplace⟩ := List.mem_iff_getElem?.mp hfile
      have hrow : createdRow P remote (newFileId place) file =
          some { fileId := createdFileId remote (newFileId place) file, path := file.path
                 contentHash := some file.hash, contentVV := VersionVector.emptyVV
                 type := file.type } := by
        rw [createdRow, hmatch]
      exact ⟨_, List.mem_append_right _ (List.mem_filterMap.mpr
        ⟨(file, place), List.mk_mem_zipIdx_iff_getElem?.mpr hplace, hrow⟩), hkey, hhash⟩

/-- The ids under which two files are created. -/
theorem createdFileId_unused {newFileId : ℕ → String} (hfresh : UnusedIds files remote newFileId)
    {x y : LocalFileSnapshot} {i j : ℕ} (hx : x ∈ files) (hy : y ∈ files) (hplace : i ≠ j)
    (hids : ∀ id, x.fileId = some id → y.fileId ≠ some id) :
    createdFileId remote (newFileId i) x ≠ createdFileId remote (newFileId j) y := by
  have hown : ∀ (file : LocalFileSnapshot) (place : ℕ),
      createdFileId remote (newFileId place) file = newFileId place ∨
        file.fileId = some (createdFileId remote (newFileId place) file) := by
    intro file place
    unfold createdFileId
    split
    · next h =>
      cases hid : file.fileId with
      | none => simp [hid, truthy] at h
      | some id => exact Or.inr rfl
    · exact Or.inl rfl
  intro heq
  rcases hown x i with hnew | hx'
  · rcases hown y j with hnew' | hy'
    · exact hplace (hfresh.injective (hnew.symm.trans (heq.trans hnew')))
    · exact hfresh.localId i y hy (hy'.trans (congrArg some (heq.symm.trans hnew)))
  · rcases hown y j with hnew' | hy'
    · exact hfresh.localId j x hx (hx'.trans (congrArg some (heq.trans hnew')))
    · exact hids _ hx' (hy'.trans (congrArg some heq.symm))

/-- **No two actions are about one id.**  Two files match different files of the server, and what
is deleted matches none. -/
theorem ids_planForcePush {newFileId : ℕ → String}
    (hpaths : (files.map fun file => caseFoldPath P file.path).Nodup)
    (hids : (files.filterMap LocalFileSnapshot.fileId).Nodup)
    (hremoteIds : (remote.map RemoteFileSnapshot.fileId).Nodup)
    (hfresh : UnusedIds files remote newFileId) :
    ((planForcePush P remote files newFileId).actions.map ForcePushAction.fileId).Nodup := by
  have hmatches : ∀ {x y : LocalFileSnapshot} {found found' : RemoteFileSnapshot},
      remoteByPath P remote x.path = some found → remoteByPath P remote y.path = some found' →
        found.fileId = found'.fileId → caseFoldPath P x.path = caseFoldPath P y.path := by
    intro x y found found' hfound hfound' hid
    obtain ⟨hmem, hpath⟩ := mem_of_remoteByPath hfound
    obtain ⟨hmem', hpath'⟩ := mem_of_remoteByPath hfound'
    rw [← hpath, ← hpath', List.inj_on_of_nodup_map hremoteIds hmem hmem' hid]
  have hboth := (List.pairwise_map.mp hpaths).and (List.pairwise_filterMap.mp hids)
  rw [List.Nodup, List.pairwise_map, planForcePush, List.pairwise_append,
    List.pairwise_filterMap, List.pairwise_filterMap]
  refine ⟨(pairwise_zipIdx hboth 0).imp_of_mem ?_, (List.pairwise_map.mp hremoteIds).imp ?_, ?_⟩
  · rintro ⟨x, i⟩ ⟨y, j⟩ hx hy ⟨⟨hfold, hapart⟩, hplace⟩ a ha b hb
    rcases of_planContent ha with ⟨found, hfound, -, rfl⟩ | ⟨-, rfl⟩
    · rcases of_planContent hb with ⟨found', hfound', -, rfl⟩ | ⟨-, rfl⟩
      · exact fun hid => hfold (hmatches hfound hfound' hid)
      · exact createdFileId_ne (hfresh.remote j) found (mem_of_remoteByPath hfound).1
    · rcases of_planContent hb with ⟨found', hfound', -, rfl⟩ | ⟨-, rfl⟩
      · exact (createdFileId_ne (hfresh.remote i) found' (mem_of_remoteByPath hfound').1).symm
      · exact createdFileId_unused hfresh (List.fst_mem_of_mem_zipIdx hx)
          (List.fst_mem_of_mem_zipIdx hy) hplace fun id hx' hy' => hapart id hx' id hy' rfl
  · intro entry entry' hne a ha b hb
    obtain ⟨-, rfl⟩ := of_planDelete ha
    obtain ⟨-, rfl⟩ := of_planDelete hb
    exact hne
  · intro a ha b hb
    obtain ⟨⟨file, place⟩, hfile, hcontent⟩ := List.mem_filterMap.mp ha
    obtain ⟨entry, hentry, hdelete⟩ := List.mem_filterMap.mp hb
    obtain ⟨hnot, rfl⟩ := of_planDelete hdelete
    rcases of_planContent hcontent with ⟨found, hfound, -, rfl⟩ | ⟨-, rfl⟩
    · intro hid
      obtain ⟨hmem, hpath⟩ := mem_of_remoteByPath hfound
      obtain rfl := List.inj_on_of_nodup_map hremoteIds hmem hentry hid
      rw [(hasLocalPath_iff P).mpr
        ⟨file, List.fst_mem_of_mem_zipIdx hfile, hpath.symm⟩] at hnot
      cases hnot
    · exact (createdFileId_ne (hfresh.remote place) entry hentry).symm

end

/-- **A force push plan mirrors the device onto the server.** -/
theorem mirrorsLocal_planForcePush (files : List LocalFileSnapshot)
    (remote : List RemoteFileSnapshot) (newFileId : ℕ → String)
    (hpaths : (files.map fun file => caseFoldPath P file.path).Nodup)
    (hids : (files.filterMap LocalFileSnapshot.fileId).Nodup)
    (hremoteIds : (remote.map RemoteFileSnapshot.fileId).Nodup)
    (hremotePaths : (remote.map fun entry => caseFoldPath P entry.path).Nodup)
    (hfresh : UnusedIds files remote newFileId) :
    MirrorsLocal P files remote (planForcePush P remote files newFileId) where
  paths := by
    rw [executePlan_eq P hpaths hremoteIds hremotePaths hfresh]
    exact paths_executed P hpaths hremotePaths
  hashes := by
    rw [executePlan_eq P hpaths hremoteIds hremotePaths hfresh]
    exact hashes_executed P hpaths
  ids := ids_planForcePush P hpaths hids hremoteIds hfresh
  creates := by
    intro action haction fileId path type dominateVV heq entry hentry
    simp only [planForcePush, List.mem_append, List.mem_filterMap] at haction
    rcases haction with ⟨⟨file, place⟩, -, hcontent⟩ | ⟨other, -, hdelete⟩
    · rcases of_planContent hcontent with ⟨_, -, -, rfl⟩ | ⟨-, rfl⟩
      · cases heq
      · cases heq
        exact createdFileId_ne (hfresh.remote place) entry hentry
    · obtain ⟨-, rfl⟩ := of_planDelete hdelete
      cases heq

/-- Ids that differ in their lengths. -/
def sampleNewId (place : ℕ) : String := String.ofList (List.replicate (place + 1) 'n')

/-- A file whose id the server has at another path, one that differs, and one the server does not
have. -/
def samplePushed : List LocalFileSnapshot :=
  [{ path := "a.md", hash := "sha256:a", type := .note, fileId := some "f1" },
    { path := "c.md", hash := "sha256:c", type := .note, fileId := some "f2" },
    { path := "d.md", hash := "sha256:d", type := .note, fileId := none }]

/-- Files of the server of which one has another path here. -/
def samplePushedRemote : List RemoteFileSnapshot :=
  [{ fileId := "f1", path := "b.md", contentHash := some "sha256:b"
     contentVV := sampleVV "d2" 2, type := .note },
    { fileId := "f3", path := "C.md", contentHash := none, contentVV := sampleVV "d2" 3
      type := .note }]

theorem unusedIds_samplePushed : UnusedIds samplePushed samplePushedRemote sampleNewId := by
  have hne : ∀ (place : ℕ) (c : Char) (l : List Char), c ≠ 'n' →
      String.ofList (c :: l) ≠ sampleNewId place := by
    intro place c l hc heq
    have hchars := String.ofList_injective heq
    rw [List.replicate_succ, List.cons.injEq] at hchars
    exact hc hchars.1
  refine ⟨fun i j h => ?_, fun i entry hentry => ?_, fun i file hfile => ?_⟩
  · have hlength := congrArg List.length (String.ofList_injective h)
    simpa only [List.length_replicate, Nat.add_right_cancel_iff] using hlength
  · simp only [samplePushedRemote, List.mem_cons, List.not_mem_nil, or_false] at hentry
    rcases hentry with rfl | rfl
    · exact hne i 'f' ['1'] (by decide)
    · exact hne i 'f' ['3'] (by decide)
  · simp only [samplePushed, List.mem_cons, List.not_mem_nil, or_false] at hfile
    rcases hfile with rfl | rfl | rfl
    · exact fun h => hne i 'f' ['1'] (by decide) (Option.some.inj h)
    · exact fun h => hne i 'f' ['2'] (by decide) (Option.some.inj h)
    · exact fun h => nomatch h

theorem mirrorsLocal_samplePushed : MirrorsLocal samplePlatform samplePushed samplePushedRemote
    (planForcePush samplePlatform samplePushedRemote samplePushed sampleNewId) :=
  mirrorsLocal_planForcePush samplePlatform samplePushed samplePushedRemote sampleNewId
    (by decide +kernel) (by decide +kernel) (by decide +kernel) (by decide +kernel)
    unusedIds_samplePushed

end ObsidianSync
