import ObsidianSync.Lib.Run
import ObsidianSync.Server.Acceptance
import ObsidianSync.Server.System
import ObsidianSync.Shared.Canonical

/-!
# Stored paths

A create, a rename and a restore canonicalize the path they are given.  Where
another live file has it, they take the first suffixed path that is free, and
store that without checking it again.  All that a suffix can break is a limit on
lengths: a row stays canonical exactly if the suffixed path is within them.  A
later restore without a path of its own canonicalizes the stored one, and throws
if that is too long.

## Main definitions

* `StoredCanonically` — the path of the row is canonical, and the key is that of the path.
* `placedPath`, `FirstFree` — the path an op asks for, and the counter it gets.
* `SuffixFits` — the suffixed path is within the limits.

## Main results

* `uniquePath_cases` — a free path as it is, or the first free suffix.
* `storedCanonically_iff_suffixFits` — the accepted ops that store a canonical path.
* `canonicalRows_iff_keepsCanonical` — the runs in which all stored paths are.
-/

namespace ObsidianSync

/-- The row is stored under a canonical path, and under the key of that path. -/
structure StoredCanonically (P : Platform) (file : StoredFile) : Prop where
  path : CanonicalPath P file.path
  key : file.pathNormalized = caseFoldPath P file.path

instance (P : Platform) (file : StoredFile) : Decidable (StoredCanonically P file) :=
  decidable_of_iff (CanonicalPath P file.path ∧ file.pathNormalized = caseFoldPath P file.path)
    ⟨fun h => ⟨h.1, h.2⟩, fun h => ⟨h.path, h.key⟩⟩

/-- All rows are. -/
def CanonicalRows (P : Platform) (s : Store) : Prop :=
  ∀ file ∈ s.files.rows, StoredCanonically P file

instance (P : Platform) (s : Store) : Decidable (CanonicalRows P s) :=
  inferInstanceAs (Decidable (∀ _ ∈ _, _))

/-- The path an op asks for, where it is to give its file one. -/
def placedPath (op : FileOp) (s : Store) : Option String :=
  match op.kind, opRow op s with
  | .create, none => some (op.newPath.getD op.fileId)
  | .create, some file => if file.deleted then some (op.newPath.getD op.fileId) else none
  | .rename, some file =>
    if op.pathClock.any fun clock => pathClockWins clock file.pathClock then
      some (op.newPath.getD file.path)
    else none
  | .restore, some file => some (op.newPath.getD file.path)
  | _, _ => none

/-- The counter of the first suffixed path that no other live file has. -/
def FirstFree (P : Platform) (s : Store) (vaultId desired fileId : String) (n : ℕ) : Prop :=
  2 ≤ n ∧ PathFree P s vaultId (suffixPath desired n) fileId ∧
    ∀ m < n, 2 ≤ m → ¬ PathFree P s vaultId (suffixPath desired m) fileId

instance (P : Platform) (s : Store) (vaultId desired fileId : String) (n : ℕ) :
    Decidable (FirstFree P s vaultId desired fileId n) :=
  inferInstanceAs (Decidable (_ ∧ _ ∧ ∀ m < n, _))

/-- **The suffix fits**: where another live file has the path that an op asks for, the first
suffixed path that is free is within the limits. -/
def SuffixFits (P : Platform) (op : FileOp) (s : Store) : Prop :=
  ∀ raw ∈ placedPath op s, ∀ desired, normalizePath P raw = .ok desired →
    ¬ PathFree P s op.vaultId desired op.fileId →
      ∀ n, FirstFree P s op.vaultId desired op.fileId n → WithinLimits (suffixPath desired n)

section

variable {P : Platform} {s : Store} {vaultId desired fileId path : String}

/-! ### The suffix that is taken -/

theorem uniquePathFrom_cases {fuel n : ℕ} {candidate : String}
    (h : uniquePathFrom P s vaultId desired fileId fuel n candidate = .ok path) :
    PathFree P s vaultId candidate fileId ∧ path = candidate ∨
      ¬ PathFree P s vaultId candidate fileId ∧ ∃ m, n ≤ m ∧ path = suffixPath desired m ∧
        PathFree P s vaultId (suffixPath desired m) fileId ∧
        ∀ k < m, n ≤ k → ¬ PathFree P s vaultId (suffixPath desired k) fileId := by
  induction fuel generalizing n candidate with
  | zero => simp [uniquePathFrom, fail] at h
  | succ fuel ih =>
    rw [uniquePathFrom] at h
    cases hfind : s.findLiveFileByPath vaultId (P.toLowerCase candidate) with
    | none =>
      rw [hfind, Except.ok.injEq] at h
      exact Or.inl ⟨fun c hc => by simp [hfind] at hc, h.symm⟩
    | some collision =>
      rw [hfind] at h
      dsimp only at h
      split at h
      · next hid =>
        rw [Except.ok.injEq] at h
        refine Or.inl ⟨fun c hc => ?_, h.symm⟩
        rw [hfind, Option.some.injEq] at hc
        exact hc ▸ hid
      · next hid =>
        refine Or.inr ⟨fun hfree => hid (hfree collision hfind), ?_⟩
        rcases ih h with ⟨hfree, rfl⟩ | ⟨htaken, m, hm, rfl, hfree, hbefore⟩
        · exact ⟨n, le_rfl, rfl, hfree, fun k hk hn => absurd hn (Nat.not_le.mpr hk)⟩
        · refine ⟨m, by omega, rfl, hfree, fun k hk hn => ?_⟩
          rcases Nat.eq_or_lt_of_le hn with rfl | hlt
          · exact htaken
          · exact hbefore k hk hlt

/-- **What `uniquePath` gives**: a free path as it is, or its first free suffix. -/
theorem uniquePath_cases (h : uniquePath P s vaultId desired fileId = .ok path) :
    PathFree P s vaultId desired fileId ∧ path = desired ∨
      ¬ PathFree P s vaultId desired fileId ∧
        ∃ n, FirstFree P s vaultId desired fileId n ∧ path = suffixPath desired n := by
  refine (uniquePathFrom_cases h).imp_right fun ⟨htaken, n, hn, hpath, hfree, hbefore⟩ => ?_
  exact ⟨htaken, n, ⟨hn, hfree, hbefore⟩, hpath⟩

/-- There is one first free suffix. -/
theorem FirstFree.unique {n m : ℕ} (hn : FirstFree P s vaultId desired fileId n)
    (hm : FirstFree P s vaultId desired fileId m) : n = m := by
  rcases Nat.lt_trichotomy n m with hlt | heq | hlt
  · exact absurd hn.2.1 (hm.2.2 n hlt hn.1)
  · exact heq
  · exact absurd hm.2.1 (hn.2.2 m hlt hm.1)

/-- The path that is stored is canonical exactly if the suffix fits. -/
theorem canonicalPath_uniquePath_iff (laws : UnicodeLaws P) {op : FileOp} {raw : String}
    (hraw : placedPath op s = some raw) (hdesired : normalizePath P raw = .ok desired)
    (h : uniquePath P s op.vaultId desired op.fileId = .ok path) :
    CanonicalPath P path ↔ SuffixFits P op s := by
  have hcanonical : CanonicalPath P desired :=
    canonicalPath_of_normalizePath laws.slashLaws hdesired
  have hsame : ∀ {raw' desired'}, raw' ∈ placedPath op s → normalizePath P raw' = .ok desired' →
      desired' = desired := by
    intro raw' desired' hraw' hdesired'
    rw [Option.mem_def, hraw, Option.some.injEq] at hraw'
    rw [← hraw', hdesired, Except.ok.injEq] at hdesired'
    exact hdesired'.symm
  rcases uniquePath_cases h with ⟨hfree, rfl⟩ | ⟨htaken, n, hfirst, rfl⟩
  · refine iff_of_true hcanonical fun raw' hraw' desired' hdesired' htaken => ?_
    rw [hsame hraw' hdesired'] at htaken
    exact absurd hfree htaken
  · rw [canonicalPath_suffixPath_iff laws hcanonical]
    constructor
    · intro hfits raw' hraw' desired' hdesired' _ m hm
      rw [hsame hraw' hdesired'] at hm ⊢
      rwa [← hfirst.unique hm]
    · exact fun hfits => hfits raw hraw desired hdesired htaken n hfirst

/-! ### Ops -/

/-- **The accepted ops that store a canonical path** are those whose suffix fits. -/
theorem storedCanonically_iff_suffixFits (laws : UnicodeLaws P) (hs : CanonicalRows P s)
    {now : Time} {uuid : Uuid} {op : FileOp} {applied : Applied}
    (h : Effect P now uuid op s applied) :
    StoredCanonically P applied.file ↔ SuffixFits P op s := by
  have hrow : ∀ {file}, opRow op s = some file → StoredCanonically P file :=
    fun hfile => hs _ (Table.mem_of_get? hfile)
  -- an op that asks for no path leaves the one of the row
  have hkeep : placedPath op s = none → StoredCanonically P applied.file →
      (StoredCanonically P applied.file ↔ SuffixFits P op s) := by
    intro hnone hcanonical
    refine iff_of_true hcanonical fun raw hraw => ?_
    rw [hnone] at hraw
    cases hraw
  have hplace : ∀ {file : StoredFile} {raw desired path : String}, placedPath op s = some raw →
      normalizePath P raw = .ok desired →
        uniquePath P s op.vaultId desired op.fileId = .ok path → file.path = path →
          file.pathNormalized = P.toLowerCase path →
            (StoredCanonically P file ↔ SuffixFits P op s) := by
    rintro file raw desired path hraw hdesired hunique rfl hkey
    rw [← canonicalPath_uniquePath_iff laws hraw hdesired hunique]
    exact ⟨StoredCanonically.path, fun hpath => ⟨hpath, hkey⟩⟩
  cases h with
  | created kind dead canonical unique =>
    refine hplace ?_ canonical unique rfl rfl
    cases hfile : opRow op s with
    | none => simp only [placedPath, kind, hfile]
    | some file => simp only [placedPath, kind, hfile, dead file hfile, if_true]
  | updated row kind dominates =>
    refine hkeep ?_ ⟨(hrow row).path, (hrow row).key⟩
    rcases kind with ⟨kind, hlive⟩ | kind
    · simp only [placedPath, kind, row, hlive, if_false, Bool.false_eq_true]
    · simp only [placedPath, kind, row]
  | conflicted row kind concurrent =>
    refine hkeep ?_ ⟨(hrow row).path, (hrow row).key⟩
    rcases kind with ⟨kind, hlive⟩ | kind
    · simp only [placedPath, kind, row, hlive, if_false, Bool.false_eq_true]
    · simp only [placedPath, kind, row]
  | lostRename row kind clock_eq loses =>
    refine hkeep ?_ (hrow row)
    simp only [placedPath, kind, row, eq_of_requiredPathClock clock_eq, Option.any_some, loses,
      if_false, Bool.false_eq_true]
  | renamed row kind clock_eq wins canonical unique =>
    refine hplace ?_ canonical unique rfl rfl
    simp only [placedPath, kind, row, eq_of_requiredPathClock clock_eq, Option.any_some, wins,
      if_true]
  | deleted row kind =>
    refine hkeep ?_ ⟨(hrow row).path, (hrow row).key⟩
    simp only [placedPath, kind, row]
  | restored row kind canonical unique =>
    refine hplace ?_ canonical unique rfl rfl
    simp only [placedPath, kind, row]

/-! ### Events and runs -/

/-- An accepted op has a suffix that fits. -/
def KeepsCanonical (P : Platform) (s : Store) : ServerEvent → Prop
  | .process now uuid op userId => (accepted P now uuid op userId s).isSome → SuffixFits P op s
  | _ => True

/-- A row that is written. -/
theorem canonicalRows_set_iff {s' : Store} {file : StoredFile} (hs : CanonicalRows P s)
    (hfiles : s'.files = s.files.set file) : CanonicalRows P s' ↔ StoredCanonically P file := by
  rw [CanonicalRows, hfiles]
  constructor
  · exact fun h => h file (Table.mem_set_iff.mpr (Or.inl rfl))
  · intro h other hother
    rcases Table.mem_set_iff.mp hother with rfl | ⟨hold, -⟩
    · exact h
    · exact hs other hold

theorem canonicalRows_serverStep_iff (laws : UnicodeLaws P) (hs : CanonicalRows P s)
    (e : ServerEvent) : CanonicalRows P (serverStep P s e) ↔ KeepsCanonical P s e := by
  have hfiles := files_serverStep P s e
  have hsame : writtenFile P s e = none → CanonicalRows P (serverStep P s e) := by
    intro hnone
    rw [hnone] at hfiles
    rw [CanonicalRows, hfiles]
    exact hs
  cases e with
  | process now uuid op userId =>
    cases ha : accepted P now uuid op userId s with
    | none =>
      refine iff_of_true (hsame (by simp [writtenFile, ha])) ?_
      simp [KeepsCanonical, ha]
    | some applied =>
      simp only [writtenFile, ha, Option.map_some] at hfiles
      rw [canonicalRows_set_iff hs hfiles,
        storedCanonically_iff_suffixFits laws hs (accepted_spec ha).effect]
      simp [KeepsCanonical, ha]
  | resolve now input =>
    refine iff_of_true ?_ trivial
    cases hr : resolution P input s with
    | none => exact hsame (by simp [writtenFile, hr])
    | some r =>
      simp only [writtenFile, hr, Option.map_some] at hfiles
      obtain ⟨-, -, hfile, -⟩ := resolve_of_resolution now hr
      have hrow : StoredCanonically P r.file := hs _ (Table.mem_of_get? hfile)
      exact (canonicalRows_set_iff hs hfiles).mpr ⟨hrow.path, hrow.key⟩
  | claim | release | saveDevice | setRole | saveBlob | putContent =>
    exact iff_of_true (hsame rfl) trivial

/-- **Stored paths over runs.**  From a store with canonical rows, the rows are canonical in every
state of a run exactly if the suffix of every accepted op fits. -/
theorem canonicalRows_iff_keepsCanonical (laws : UnicodeLaws P) (hs : CanonicalRows P s)
    (es : List ServerEvent) :
    Run.Throughout (serverStep P) (CanonicalRows P) s es ↔
      Run.EachStep (serverStep P) (KeepsCanonical P) s es :=
  Run.throughout_iff_eachStep (I := fun _ => True) (fun _ _ _ => trivial)
    (fun _ e _ hs => canonicalRows_serverStep_iff laws hs e) es trivial hs

end

/-! ### A name that is as long as it may be -/

/-- Two devices create a note under one path. -/
def sampleCollision (path : String) : List ServerEvent :=
  [.process 1 sampleUuid
      (sampleContentOp .create "o1" "d1" "f1" 1 (some path) (sampleVV "d1" 1) "one") (some "u"),
    .process 2 sampleUuid
      (sampleContentOp .create "o2" "d2" "f2" 1 (some path) (sampleVV "d2" 1) "two") (some "u")]

theorem wellFormed_sampleCreate {opId deviceId fileId path text : String} (vv : VersionVector)
    (hop : opId ≠ "") (hdevice : deviceId ≠ "") (hfile : fileId ≠ "")
    (hhash : isValidContentHash (contentHashText samplePlatform text) = true)
    (hpath : CanonicalPath samplePlatform path) :
    WellFormedContent samplePlatform
      (sampleContentOp .create opId deviceId fileId 1 (some path) vv text) path where
  opId := hop
  deviceId := hdevice
  vaultId := by simp [sampleContentOp]
  fileId := hfile
  deviceSeq := le_rfl
  safeSeq := (by decide : isSafeInteger 1 = true)
  newPath := rfl
  canonical := hpath
  contentHash := ⟨_, rfl, hhash⟩
  inlineText other hother := by
    obtain rfl : text = other := Option.some.inj hother
    exact ⟨rfl, rfl, rfl⟩
  blobRef h := by cases h

/-- A device of the sample store that has written nothing yet. -/
def sampleNewDevice (deviceId : String) : StoredDevice :=
  { deviceId, userId := "u", vaultId := "v", lastDeviceSeq := 0, lastSeq := 0, revoked := false }

/-- A sample create is accepted under the path that `uniquePath` gives. -/
theorem accepted_sampleCreate (s : Store) (opId deviceId fileId text : String)
    {path placed : String} (vv : VersionVector) (now : Time) (hop : opId ≠ "")
    (hdevice : deviceId ≠ "") (hfile : fileId ≠ "")
    (hhash : isValidContentHash (contentHashText samplePlatform text) = true)
    (hpath : CanonicalPath samplePlatform path) (hfresh : s.getOpById opId = none)
    (hknown : s.getDevice deviceId = some (sampleNewDevice deviceId))
    (hwriter : deviceId ≠ "collab:" ++ fileId) (hrole : s.getRole "v" "u" = some .owner)
    (hrow : s.getFile "v" fileId = none)
    (hunique : uniquePath samplePlatform s "v" path fileId = .ok placed) :
    ∃ applied, accepted samplePlatform now sampleUuid
        (sampleContentOp .create opId deviceId fileId 1 (some path) vv text) (some "u") s
          = some applied ∧
      applied.file = newStoredFile samplePlatform now
        (sampleContentOp .create opId deviceId fileId 1 (some path) vv text) placed
          { lamport := 1, deviceId } := by
  have hnext : NextOfDevice (sampleContentOp .create opId deviceId fileId 1 (some path) vv text)
      "u" (sampleNewDevice deviceId) s :=
    ⟨by simp [syntheticCollab, sampleContentOp, hwriter], hknown, rfl, rfl,
      by simp [sampleContentOp, hrole, Role.canWrite], rfl⟩
  exact (accepted_of_unique hfresh hnext
    (wellFormed_sampleCreate vv hop hdevice hfile hhash hpath)
    (fun h => absurd h (by simp [sampleContentOp, truthy])) rfl hrow hunique).imp
    fun _ h => ⟨h.1, h.2.1⟩

/-- The second of two notes that ask for one path gets it with the counter `2`. -/
theorem canonicalPath_of_sampleCollision {path : String}
    (hpath : CanonicalPath samplePlatform path)
    (hother : samplePlatform.toLowerCase path ≠ samplePlatform.toLowerCase (suffixPath path 2))
    (h : Run.Throughout (serverStep samplePlatform) (CanonicalRows samplePlatform) sampleStore
      (sampleCollision path)) : CanonicalPath samplePlatform (suffixPath path 2) := by
  have hempty : sampleStore.files = Table.empty := by decide +kernel
  -- the first note is stored under the path
  obtain ⟨first, ha, hfile⟩ := accepted_sampleCreate sampleStore "o1" "d1" "f1" "one"
    (sampleVV "d1" 1) 1 (by decide) (by decide) (by decide) (by decide +kernel)
    hpath (by decide +kernel) (by decide +kernel)
    (by decide) (by decide +kernel) (by decide +kernel)
    (uniquePath_of_pathFree fun c hc => by simp [Store.findLiveFileByPath, hempty] at hc)
  have hframe := (accepted_spec ha).frame
  set op := sampleContentOp .create "o1" "d1" "f1" 1 (some path) (sampleVV "d1" 1) "one" with hop
  set row := newStoredFile samplePlatform 1 op path { lamport := 1, deviceId := "d1" } with hrow
  set s := (commit 1 op (opDevice op sampleStore) first).2 with hs
  have hstep : serverStep samplePlatform sampleStore (.process 1 sampleUuid op (some "u")) = s := by
    simp only [serverStep, process_of_accepted ha, hs]
  have hrows : s.files.rows = [row] := by
    rw [hs, commit_files, hframe.files, hempty, hfile]
    rfl
  -- so the second one gets the first suffix
  have hunique : uniquePath samplePlatform s "v" path "f2" = .ok (suffixPath path 2) := by
    have htaken : s.findLiveFileByPath "v" (samplePlatform.toLowerCase path) = some row := by
      rw [Store.findLiveFileByPath, hrows]
      exact List.find?_cons_of_pos (decide_eq_true ⟨⟨rfl, rfl⟩, rfl⟩)
    have hfree :
        s.findLiveFileByPath "v" (samplePlatform.toLowerCase (suffixPath path 2)) = none := by
      refine Store.findLiveFileByPath_eq_none_iff.mpr fun file hmem _ => ?_
      rw [hrows, List.mem_singleton] at hmem
      rw [hmem]
      exact hother
    rw [uniquePath, uniquePathFrom, htaken]
    dsimp only
    rw [if_neg (show row.fileId ≠ "f2" from by simp [hrow, newStoredFile, hop, sampleContentOp]),
      uniquePathFrom, hfree]
  have hdevices : s.getDevice "d2" = some (sampleNewDevice "d2") := by
    have hknown : opDevice op sampleStore = some (sampleNewDevice "d1") := by
      have hwriter : syntheticCollab op = false := by simp [syntheticCollab, hop, sampleContentOp]
      rw [opDevice, hwriter]
      exact (by decide +kernel : sampleStore.getDevice "d1" = some (sampleNewDevice "d1"))
    rw [Store.getDevice, hs, hknown, commit_devices]
    dsimp only
    rw [Table.get?_set_of_ne (by simp [sampleNewDevice]), hframe.devices]
    decide +kernel
  have hfresh : s.getOpById "o2" = none := by
    have hops : sampleStore.ops = [] := by decide +kernel
    rw [Store.getOpById, hs, commit_ops, hframe.ops, hops]
    simp [loggedOp, hop, sampleContentOp]
  obtain ⟨second, ha', hfile'⟩ := accepted_sampleCreate s "o2" "d2" "f2" "two"
    (sampleVV "d2" 1) 2 (by decide) (by decide) (by decide) (by decide +kernel)
    hpath hfresh hdevices (by decide)
    (by
      rw [Store.getRole, hs, commit_roles, hframe.roles]
      decide +kernel)
    (by
      rw [Store.getFile, hs, commit_files, hframe.files, hempty, hfile]
      exact Table.get?_set_of_ne
        (by simp [hrow, newStoredFile, hop, sampleContentOp, StoredFile.key]))
    hunique
  have hfinal := h.final
  rw [sampleCollision, Run.final_cons, ← hop, hstep, Run.final_cons, Run.final_nil, serverStep,
    process_of_accepted ha'] at hfinal
  have hmem : second.file ∈ (commit 2 (sampleContentOp .create "o2" "d2" "f2" 1 (some path)
      (sampleVV "d2" 1) "two") (opDevice (sampleContentOp .create "o2" "d2" "f2" 1 (some path)
      (sampleVV "d2" 1) "two") s) second).2.files.rows := by
    rw [commit_files]
    exact Table.mem_set_iff.mpr (Or.inl rfl)
  have hcanonical := (hfinal _ hmem).path
  rwa [hfile'] at hcanonical

/-- Where the name is short, the second note is stored under a canonical path too. -/
theorem canonicalRows_sampleCollision :
    Run.Throughout (serverStep samplePlatform) (CanonicalRows samplePlatform) sampleStore
      (sampleCollision "a.md") := by
  have hdesired : normalizePath samplePlatform "a.md" = .ok "a.md" := by decide +kernel
  refine (canonicalRows_iff_keepsCanonical unicodeLaws_samplePlatform (by decide +kernel) _).mpr
    ⟨fun _ raw hraw desired hnormal htaken => ?_, fun _ raw hraw desired hnormal _ n hfirst => ?_,
      trivial⟩
  · obtain rfl : "a.md" = raw := Option.some.inj hraw
    obtain rfl : "a.md" = desired := Except.ok.inj (hdesired.symm.trans hnormal)
    exact absurd (by decide +kernel) htaken
  · obtain rfl : "a.md" = raw := Option.some.inj hraw
    obtain rfl : "a.md" = desired := Except.ok.inj (hdesired.symm.trans hnormal)
    rw [hfirst.unique (m := 2) (by decide +kernel)]
    decide +kernel

/-- The characters of a name of 255 bytes. -/
def sampleLongChars : List Char := List.replicate 252 'a' ++ ['.', 'm', 'd']

/-- A name of 255 bytes. -/
def sampleLongName : String := String.ofList sampleLongChars

theorem toLowerCase_ofList (text : List Char) :
    samplePlatform.toLowerCase (String.ofList text) = String.ofList (text.map Char.toLower) := by
  simp [samplePlatform]

theorem canonicalPath_sampleLongName : CanonicalPath samplePlatform sampleLongName := by
  have hp : trimSlashes ((samplePlatform.normalizeNFC sampleLongName).toList.map
      fun c => if c = '\\' then '/' else c) = sampleLongChars := by
    rw [show samplePlatform.normalizeNFC sampleLongName = sampleLongName from rfl,
      sampleLongName, String.toList_ofList]
    decide +kernel
  have hsplit : sampleLongChars.splitOn '/' = [sampleLongChars] := by decide +kernel
  have hbytes : byteLength sampleLongChars = 255 := by decide +kernel
  have hstem : windowsReserved.contains (samplePlatform.toLowerCase
      (String.ofList ((sampleLongChars.splitOn '.').headD []))) = false := by
    rw [toLowerCase_ofList]
    decide +kernel
  have hseg : validateSegment samplePlatform sampleLongChars sampleLongName = .ok () := by
    unfold validateSegment
    rw [if_neg (by decide +kernel), if_neg (by decide +kernel), hbytes, if_neg (by decide),
      if_neg (by decide +kernel), if_neg (by decide +kernel), hstem]
    rfl
  unfold CanonicalPath normalizePath
  dsimp only
  rw [hp, if_neg (by decide +kernel), hbytes, if_neg (by decide), hsplit, validateSegments, hseg]
  rfl

theorem extname_of_splitAtLast {name : String} {x : Char} {stem ext : List Char}
    (hbase : splitPath name = ("", name))
    (hdot : splitAtLast '.' name.toList = some (x :: stem, ext)) :
    extname name = "." ++ String.ofList ext := by
  simp only [extname, hbase, hdot]

theorem suffixPath_sampleLongName : suffixPath sampleLongName 2
    = String.ofList (List.replicate 252 'a' ++ [' ', '(', '2', ')', '.', 'm', 'd']) := by
  have hdir : splitAtLast '/' sampleLongChars = none := by decide +kernel
  have hbase : splitPath sampleLongName = ("", sampleLongName) := by
    rw [splitPath, sampleLongName, String.toList_ofList, hdir]
  have hdot : splitAtLast '.' sampleLongChars
      = some ('a' :: List.replicate 251 'a', ['m', 'd']) := by decide +kernel
  have hext : extname sampleLongName = String.ofList ['.', 'm', 'd'] := by
    rw [extname_of_splitAtLast hbase (by rw [sampleLongName, String.toList_ofList]; exact hdot)]
    decide +kernel
  have hstem : sampleLongChars.take (sampleLongChars.length - ['.', 'm', 'd'].length)
      = List.replicate 252 'a' := by decide +kernel
  have hcounter : " (" ++ (toString 2 ++ (")" ++ String.ofList ['.', 'm', 'd']))
      = String.ofList [' ', '(', '2', ')', '.', 'm', 'd'] := by decide +kernel
  unfold suffixPath
  dsimp only
  rw [hbase]
  dsimp only
  rw [hext, sampleLongName, String.toList_ofList, String.toList_ofList, hstem, joinPath, if_pos rfl,
    String.ofList_append, ← hcounter]
  simp only [String.append_assoc]

/-- The counter makes it too long. -/
theorem not_withinLimits_sampleLongName : ¬ WithinLimits (suffixPath sampleLongName 2) := by
  have hsplit : (List.replicate 252 'a' ++ [' ', '(', '2', ')', '.', 'm', 'd']).splitOn '/'
      = [List.replicate 252 'a' ++ [' ', '(', '2', ')', '.', 'm', 'd']] := by decide +kernel
  have hbytes : byteLength (List.replicate 252 'a' ++ [' ', '(', '2', ')', '.', 'm', 'd'])
      = 259 := by decide +kernel
  rw [suffixPath_sampleLongName, WithinLimits, String.toList_ofList, hsplit]
  rintro ⟨-, hsegments⟩
  have hseg := hsegments _ (List.mem_singleton_self _)
  rw [hbytes] at hseg
  exact absurd hseg (by decide)

/-- Where it is as long as it may be, the second note is stored under a path that is too long. -/
theorem not_canonicalRows_sampleLongName :
    CanonicalRows samplePlatform sampleStore ∧
      ¬ Run.Throughout (serverStep samplePlatform) (CanonicalRows samplePlatform) sampleStore
        (sampleCollision sampleLongName) := by
  refine ⟨by decide +kernel, fun h => not_withinLimits_sampleLongName ?_⟩
  have hother : samplePlatform.toLowerCase sampleLongName
      ≠ samplePlatform.toLowerCase (suffixPath sampleLongName 2) := by
    rw [suffixPath_sampleLongName, sampleLongName, toLowerCase_ofList, toLowerCase_ofList, ne_eq,
      String.ofList_inj]
    decide +kernel
  exact (canonicalPath_suffixPath_iff unicodeLaws_samplePlatform canonicalPath_sampleLongName
    2).mp (canonicalPath_of_sampleCollision canonicalPath_sampleLongName hother h)

end ObsidianSync
