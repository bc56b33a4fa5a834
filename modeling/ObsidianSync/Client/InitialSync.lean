import ObsidianSync.Client.ForcePull
import ObsidianSync.Lib.Run
import ObsidianSync.Socket.Manifest

/-!
# The first sync

`InitialSyncRunner.run` pages through the manifest, materializes each file, and saves the index
with the cursor after each page.  It may be rejected wherever it waits, and the plugin may end at
any time; the next run goes on at the cursor of the index that was saved.  What the vault was
given before the end of the plugin stays, also where the index was not saved any more.

The pages are those of a server whose files do not change meanwhile; the content that it sends
may be anything.

## Main definitions

* `InitialSync`, `InitialSyncPhase` — the index in memory, the one that was saved, the vault, and
  how far a run has come.
* `initialSyncStep` — what a run waited for happens, or a run or the plugin ends.
* `FileInPlace`, `Indexed` — a file of the manifest is in the vault, and in the index.
* `SyncsSafely` — the property.

## Main results

* `syncsSafely_run` — **however often a run is cut off, one that returns has put every file of
  the manifest in place, and no other file is touched.**
* `resumes_run` — a run that is not cut off returns, whatever happened before.
* `firstSync_safe`, `firstSync_resumes` — the same over the tables, for the live files of the
  vault.
-/

namespace ObsidianSync

open Engine

/-! ### A run -/

/-- `manifestCursor` and `manifestWatermarkSeq` of the index. -/
structure ManifestPlace where
  cursor : Option String := none
  watermarkSeq : Option ℕ := none
  deriving DecidableEq, Repr

/-- What a run waits for. -/
inductive InitialSyncPhase
  /-- There is no run. -/
  | idle
  /-- The next page. -/
  | asking
  /-- The content of the first of the items that are left of a page. -/
  | applying (items : List ManifestEntry) (nextCursor : Option String) (watermark : ℕ)
  /-- `save()` after a page. -/
  | saving (watermark : ℕ)
  /-- `save()` after the last page. -/
  | finishing
  | returned
  deriving DecidableEq

/-- The plugin, and what is on disk. -/
structure InitialSync where
  engine : Engine
  place : ManifestPlace := {}
  /-- The index that was saved last. -/
  saved : LocalIndex × ManifestPlace
  phase : InitialSyncPhase := .idle

/-- What happens to the first synchronisation. -/
inductive InitialSyncEvent
  | run
  /-- What the run waits for happens; the server sends content by its hash. -/
  | goesOn (now : Time) (getContent : String → Option Bytes)
  /-- What the run waits for is rejected. -/
  | rejects
  /-- The plugin ends, and is loaded again. -/
  | crashes
  /-- The plugin ends after a file was written, before that is in the index. -/
  | crashesWritten (now : Time) (getContent : String → Option Bytes)

namespace InitialSync

variable (P : Platform) (decrypt : Bytes → Option Bytes)
  (page : Option String → Except SyncError ManifestPage) (s : InitialSync)

/-- The items of a page are dealt with one by one; after them the cursor is set, and `save()`
called. -/
def applyItems (items : List ManifestEntry) (nextCursor : Option String) (watermark : ℕ) :
    InitialSync :=
  if items = [] then
    { s with place := ⟨nextCursor, some watermark⟩, phase := .saving watermark }
  else { s with phase := .applying items nextCursor watermark }

/-- What is in memory is saved. -/
def save : InitialSync := { s with saved := (s.engine.index, s.place) }

/-- What the run waits for happens. -/
def goOn (source : ContentSource) (now : Time) : InitialSync :=
  match s.phase with
  | .idle | .returned | .applying [] _ _ => s
  | .asking =>
    match page s.place.cursor with
    -- the page is answered by an error, and `waitFor` rejects in the end
    | .error _ => { s with phase := .idle }
    | .ok read => s.applyItems read.items read.nextCursor read.watermarkSeq
  | .applying (entry :: items) nextCursor watermark =>
    match applyManifestEntry P source now entry s.engine with
    | (true, engine) => { s with engine }.applyItems items nextCursor watermark
    | (false, engine) => { s with engine, phase := .idle }
  | .saving watermark =>
    if truthy s.place.cursor then { s.save with phase := .asking }
    else
      { s.save with
        engine.index := s.engine.index.setAppliedSeq watermark
        place := ⟨none, s.place.watermarkSeq⟩
        phase := .finishing }
  | .finishing => { s.save with phase := .returned }

/-- The plugin is loaded again: with the index that was saved. -/
def restart (vault : Vault) : InitialSync :=
  { s with engine := { s.engine with vault, index := s.saved.1 }, place := s.saved.2
           phase := .idle }

/-- The vault once the file of the next item is written. -/
def writtenVault (source : ContentSource) (now : Time) : Vault :=
  match s.phase with
  | .applying (entry :: _) _ _ => (applyManifestEntry P source now entry s.engine).2.vault
  | _ => s.engine.vault

end InitialSync

/-- The first synchronisation after an event. -/
def initialSyncStep (P : Platform) (decrypt : Bytes → Option Bytes)
    (page : Option String → Except SyncError ManifestPage) (s : InitialSync) :
    InitialSyncEvent → InitialSync
  | .run => if s.phase = .idle ∨ s.phase = .returned then { s with phase := .asking } else s
  | .goesOn now getContent => s.goOn P page { getContent, decrypt } now
  | .rejects => if s.phase = .returned then s else { s with phase := .idle }
  | .crashes => s.restart s.engine.vault
  | .crashesWritten now getContent => s.restart (s.writtenVault P { getContent, decrypt } now)

/-! ### The property -/

section

variable (P : Platform) (decrypt : Bytes → Option Bytes)

/-- Files without content are no files to fetch. -/
def ManifestEntry.Wanted (entry : ManifestEntry) : Prop :=
  entry.deleted = false ∧ truthy entry.contentHash = true

/-- Stored bytes, decrypted where the entry says that they are encrypted. -/
def openedBytes (entry : ManifestEntry) (stored : Bytes) : Option Bytes :=
  ContentSource.opened { getContent := fun _ => none, decrypt } entry.contentEncoding stored

/-- The vault has the content of the entry: that of stored bytes with its hash. -/
def FileInPlace (entry : ManifestEntry) (vault : Vault) : Prop :=
  ∃ stored bytes, contentHash P stored = entry.contentHash.getD "" ∧
    openedBytes decrypt entry stored = some bytes ∧
    vault.readBytes entry.path = some (writtenBytes P entry.type bytes)

/-- The index has the row of the entry. -/
def Indexed (entry : ManifestEntry) (index : LocalIndex) : Prop :=
  ∃ now bytes, index.byFileId entry.fileId = some (manifestIndexEntry P now entry bytes)

/-- The files of the manifest are in place. -/
def AllInPlace (entries : List ManifestEntry) (vault : Vault) (index : LocalIndex) : Prop :=
  ∀ entry ∈ entries, entry.Wanted → FileInPlace P decrypt entry vault ∧ Indexed P entry index

/-- No file is touched but those of the manifest, and these hold what it says once a run has
returned; the index is saved then. -/
structure SyncsSafely (entries : List ManifestEntry) (watermarkSeq : ℕ) (vault : Vault)
    (s : InitialSync) : Prop where
  untouched : ∀ path, s.engine.vault.readBytes path = vault.readBytes path ∨
    ∃ entry ∈ entries, entry.path = path ∧ FileInPlace P decrypt entry s.engine.vault
  complete : s.phase = .returned → AllInPlace P decrypt entries s.engine.vault s.engine.index ∧
    watermarkSeq ≤ s.engine.index.device.appliedSeq ∧ s.saved.1 = s.engine.index

end

/-- A server whose manifest does not change. -/
structure StillManifest (page : Option String → Except SyncError ManifestPage)
    (entries : List ManifestEntry) (watermarkSeq : ℕ) : Prop where
  lists : ∃ fuel, fetchManifest page fuel none = some entries
  watermark : ∀ cursor read, page cursor = .ok read → read.watermarkSeq = watermarkSeq
  cursors : ∀ cursor read, page cursor = .ok read → read.nextCursor ≠ some ""
  ids : ∀ a ∈ entries, ∀ b ∈ entries, a.fileId = b.fileId → a = b
  paths : ∀ a ∈ entries, ∀ b ∈ entries, a.path = b.path → a = b

/-! ### One file -/

section

variable (P : Platform) (source : ContentSource) (now : Time) (entry : ManifestEntry)
  (e : Engine)

/-- A file of the manifest is verified, written and indexed, or nothing is written. -/
theorem applyManifestEntry_cases :
    (applyManifestEntry P source now entry e).2.vault = e.vault ∧
      (applyManifestEntry P source now entry e).2.index.files = e.index.files ∧
      ((applyManifestEntry P source now entry e).1 = true → ¬ entry.Wanted) ∨
    ∃ stored bytes, contentHash P stored = entry.contentHash.getD "" ∧
      openedBytes source.decrypt entry stored = some bytes ∧
      (applyManifestEntry P source now entry e).2.vault
        = e.vault.writeBytes entry.path (writtenBytes P entry.type bytes) ∧
      (applyManifestEntry P source now entry e).2.index.files
        = e.index.files.set (manifestIndexEntry P now entry bytes) := by
  unfold applyManifestEntry
  split
  · next hskip =>
    refine Or.inl ⟨rfl, rfl, fun _ hwanted => ?_⟩
    simp [hwanted.1, hwanted.2] at hskip
  · split
    · exact Or.inl ⟨rfl, rfl, fun h => absurd h Bool.false_ne_true⟩
    next stored index hfetch =>
    have hfiles : index.files = e.index.files := by
      unfold fetchEntry at hfetch
      split at hfetch
      · obtain ⟨_, -, heq⟩ := Option.map_eq_some_iff.mp hfetch
        rw [← (Prod.mk.inj heq).2]
      · obtain ⟨_, -, heq⟩ := Option.map_eq_some_iff.mp hfetch
        rw [← (Prod.mk.inj heq).2]
        rfl
    split
    · exact Or.inl ⟨rfl, hfiles, fun h => absurd h Bool.false_ne_true⟩
    next hhash =>
    split
    · exact Or.inl ⟨rfl, hfiles, fun h => absurd h Bool.false_ne_true⟩
    next bytes hopened =>
    refine Or.inr ⟨stored, bytes, not_not.mp hhash, hopened, ?_, ?_⟩
    · dsimp only
      unfold writtenBytes
      split <;> rfl
    · rw [← hfiles]
      rfl

end

section

variable {P : Platform} {decrypt : Bytes → Option Bytes} {entry other : ManifestEntry}
  {entries : List ManifestEntry} {vault : Vault} {index index' : LocalIndex} {now : Time}
  {stored bytes : Bytes}

/-- The file that is written is in place. -/
theorem FileInPlace.write (hhash : contentHash P stored = entry.contentHash.getD "")
    (hopened : openedBytes decrypt entry stored = some bytes) :
    FileInPlace P decrypt entry
      (vault.writeBytes entry.path (writtenBytes P entry.type bytes)) := by
  refine ⟨stored, bytes, hhash, hopened, ?_⟩
  rw [Vault.readBytes_writeBytes, if_pos rfl]

/-- A file in place stays there: another one is under another path. -/
theorem FileInPlace.keep (hhash : contentHash P stored = entry.contentHash.getD "")
    (hopened : openedBytes decrypt entry stored = some bytes)
    (hpath : entry.path = other.path → entry = other) (h : FileInPlace P decrypt other vault) :
    FileInPlace P decrypt other
      (vault.writeBytes entry.path (writtenBytes P entry.type bytes)) := by
  by_cases hsame : entry.path = other.path
  · rw [← hpath hsame]
    exact .write hhash hopened
  · obtain ⟨stored', bytes', hhash', hopened', hread⟩ := h
    refine ⟨stored', bytes', hhash', hopened', ?_⟩
    rwa [Vault.readBytes_writeBytes, if_neg hsame]

theorem Indexed.set
    (hfiles : index'.files = index.files.set (manifestIndexEntry P now entry bytes)) :
    Indexed P entry index' := by
  refine ⟨now, bytes, ?_⟩
  rw [LocalIndex.byFileId, hfiles]
  exact Table.get?_set_self _ _

theorem Indexed.keep
    (hfiles : index'.files = index.files.set (manifestIndexEntry P now entry bytes))
    (hid : entry.fileId = other.fileId → entry = other) (h : Indexed P other index) :
    Indexed P other index' := by
  by_cases hsame : entry.fileId = other.fileId
  · rw [← hid hsame]
    exact .set hfiles
  · obtain ⟨now', bytes', hget⟩ := h
    refine ⟨now', bytes', ?_⟩
    have hother : (manifestIndexEntry P now entry bytes).fileId ≠ other.fileId := hsame
    rw [LocalIndex.byFileId, hfiles, Table.get?_set, if_neg hother]
    exact hget

theorem Indexed.of_files (hfiles : index'.files = index.files) (h : Indexed P other index) :
    Indexed P other index' := by
  obtain ⟨now', bytes', hget⟩ := h
  exact ⟨now', bytes', by rw [LocalIndex.byFileId, hfiles]; exact hget⟩

end

/-- What a file of the manifest does to the vault and the index. -/
structure EntryEffect (P : Platform) (decrypt : Bytes → Option Bytes)
    (entries : List ManifestEntry) (entry : ManifestEntry) (e : Engine) (result : Bool × Engine) :
    Prop where
  files : ∀ other ∈ entries, FileInPlace P decrypt other e.vault →
    FileInPlace P decrypt other result.2.vault
  rows : ∀ other ∈ entries, Indexed P other e.index → Indexed P other result.2.index
  untouched : ∀ path, result.2.vault.readBytes path = e.vault.readBytes path ∨
    entry.path = path ∧ FileInPlace P decrypt entry result.2.vault
  placed : result.1 = true → entry.Wanted →
    FileInPlace P decrypt entry result.2.vault ∧ Indexed P entry result.2.index

theorem entryEffect (P : Platform) (source : ContentSource) {entries : List ManifestEntry}
    {entry : ManifestEntry} (now : Time) (e : Engine)
    (hid : ∀ other ∈ entries, entry.fileId = other.fileId → entry = other)
    (hpath : ∀ other ∈ entries, entry.path = other.path → entry = other) :
    EntryEffect P source.decrypt entries entry e (applyManifestEntry P source now entry e) := by
  rcases applyManifestEntry_cases P source now entry e with
    ⟨hvault, hfiles, hskipped⟩ | ⟨stored, bytes, hhash, hopened, hvault, hfiles⟩
  · refine ⟨fun other _ h => hvault ▸ h, fun other _ h => h.of_files hfiles, fun path => ?_,
      fun hdone hwanted => absurd hwanted (hskipped hdone)⟩
    exact Or.inl (by rw [hvault])
  · refine ⟨fun other hother h => ?_, fun other hother h => h.keep hfiles (hid other hother),
      fun path => ?_, fun _ _ => ⟨?_, .set hfiles⟩⟩
    · rw [hvault]
      exact h.keep hhash hopened (hpath other hother)
    · by_cases hsame : entry.path = path
      · refine Or.inr ⟨hsame, ?_⟩
        rw [hvault]
        exact .write hhash hopened
      · exact Or.inl (by rw [hvault, Vault.readBytes_writeBytes, if_neg hsame])
    · rw [hvault]
      exact .write hhash hopened

/-! ### The pages that are left -/

section

variable {page : Option String → Except SyncError ManifestPage} {cursor : Option String}
  {rest : List ManifestEntry} {read : ManifestPage}

/-- The entries of the pages from a cursor on. -/
def PagesFrom (page : Option String → Except SyncError ManifestPage) (cursor : Option String)
    (rest : List ManifestEntry) : Prop :=
  ∃ fuel, fetchManifest page fuel cursor = some rest

/-- The entries that come after a page. -/
def PagesAfter (page : Option String → Except SyncError ManifestPage) (cursor : Option String)
    (rest : List ManifestEntry) : Prop :=
  if truthy cursor then PagesFrom page cursor rest else rest = []

/-- A page, and the entries that come after it. -/
theorem PagesFrom.answered (h : PagesFrom page cursor rest) (hread : page cursor = .ok read) :
    ∃ later, rest = read.items ++ later ∧ PagesAfter page read.nextCursor later := by
  obtain ⟨fuel, hfetch⟩ := h
  cases fuel with
  | zero => cases hfetch
  | succ fuel =>
    rw [fetchManifest, hread] at hfetch
    dsimp only at hfetch
    split at hfetch
    · next hmore =>
      obtain ⟨later, hlater, rfl⟩ := Option.map_eq_some_iff.mp hfetch
      exact ⟨later, rfl, by rw [PagesAfter, if_pos hmore]; exact ⟨fuel, hlater⟩⟩
    · next hlast =>
      rw [Option.some.injEq] at hfetch
      exact ⟨[], by rw [hfetch, List.append_nil], by rw [PagesAfter, if_neg hlast]⟩

end

/-! ### The invariant -/

section

variable (P : Platform) (decrypt : Bytes → Option Bytes)
  (page : Option String → Except SyncError ManifestPage) (entries : List ManifestEntry)
  (watermarkSeq : ℕ)

/-- The cursor of an index: the entries that come before its pages are in place. -/
def UpTo (cursor : Option String) (vault : Vault) (index : LocalIndex) : Prop :=
  ∃ front rest, entries = front ++ rest ∧ PagesFrom page cursor rest ∧
    AllInPlace P decrypt front vault index

/-- What holds of a run where it waits. -/
def PhaseKept (s : InitialSync) : InitialSyncPhase → Prop
  | .idle | .asking => True
  | .applying items nextCursor watermark => watermark = watermarkSeq ∧ nextCursor ≠ some "" ∧
      ∃ front later, entries = front ++ items ++ later ∧ PagesAfter page nextCursor later ∧
        AllInPlace P decrypt front s.engine.vault s.engine.index
  | .saving watermark => watermark = watermarkSeq ∧
      (truthy s.place.cursor = false →
        AllInPlace P decrypt entries s.engine.vault s.engine.index)
  | .finishing => AllInPlace P decrypt entries s.engine.vault s.engine.index ∧
      watermarkSeq ≤ s.engine.index.device.appliedSeq
  | .returned => AllInPlace P decrypt entries s.engine.vault s.engine.index ∧
      watermarkSeq ≤ s.engine.index.device.appliedSeq ∧ s.saved.1 = s.engine.index

/-- The invariant: each of the two indexes has the files that come before its cursor. -/
structure FirstSyncKept (vault : Vault) (s : InitialSync) : Prop where
  untouched : ∀ path, s.engine.vault.readBytes path = vault.readBytes path ∨
    ∃ entry ∈ entries, entry.path = path ∧ FileInPlace P decrypt entry s.engine.vault
  memory : UpTo P decrypt page entries s.place.cursor s.engine.vault s.engine.index
  saved : UpTo P decrypt page entries s.saved.2.cursor s.engine.vault s.saved.1
  phase : PhaseKept P decrypt page entries watermarkSeq s s.phase

end

section

variable {P : Platform} {decrypt : Bytes → Option Bytes}
  {page : Option String → Except SyncError ManifestPage} {entries front : List ManifestEntry}
  {watermarkSeq : ℕ} {vault vault' : Vault} {index index' : LocalIndex} {cursor : Option String}
  {s : InitialSync}

theorem FirstSyncKept.syncsSafely
    (h : FirstSyncKept P decrypt page entries watermarkSeq vault s) :
    SyncsSafely P decrypt entries watermarkSeq vault s where
  untouched := h.untouched
  complete hphase := by
    have hkept := h.phase
    rw [hphase] at hkept
    exact hkept

theorem AllInPlace.mono
    (hfile : ∀ entry ∈ front, FileInPlace P decrypt entry vault →
      FileInPlace P decrypt entry vault')
    (hindex : ∀ entry ∈ front, Indexed P entry index → Indexed P entry index')
    (h : AllInPlace P decrypt front vault index) : AllInPlace P decrypt front vault' index' :=
  fun entry hentry hwanted =>
    ⟨hfile entry hentry (h entry hentry hwanted).1, hindex entry hentry (h entry hentry hwanted).2⟩

theorem UpTo.mono
    (hfile : ∀ entry ∈ entries, FileInPlace P decrypt entry vault →
      FileInPlace P decrypt entry vault')
    (hindex : ∀ entry ∈ entries, Indexed P entry index → Indexed P entry index')
    (h : UpTo P decrypt page entries cursor vault index) :
    UpTo P decrypt page entries cursor vault' index' := by
  obtain ⟨front, rest, rfl, hpages, hplaces⟩ := h
  exact ⟨front, rest, rfl, hpages, hplaces.mono
    (fun entry hentry => hfile entry (List.mem_append_left rest hentry))
    (fun entry hentry => hindex entry (List.mem_append_left rest hentry))⟩

/-- At the start of the pages nothing need be in place. -/
theorem upTo_none (h : PagesFrom page none entries) :
    UpTo P decrypt page entries none vault index :=
  ⟨[], entries, rfl, h, fun _ hentry => nomatch hentry⟩

/-- The items of a page are dealt with, from the one on that comes next. -/
theorem FirstSyncKept.applyItems (hstill : StillManifest page entries watermarkSeq)
    {items later : List ManifestEntry} {nextCursor : Option String}
    (hvault : ∀ path, s.engine.vault.readBytes path = vault.readBytes path ∨
      ∃ entry ∈ entries, entry.path = path ∧ FileInPlace P decrypt entry s.engine.vault)
    (hmemory : UpTo P decrypt page entries s.place.cursor s.engine.vault s.engine.index)
    (hsaved : UpTo P decrypt page entries s.saved.2.cursor s.engine.vault s.saved.1)
    (hnext : nextCursor ≠ some "") (hentries : entries = front ++ items ++ later)
    (hlater : PagesAfter page nextCursor later)
    (hfront : AllInPlace P decrypt front s.engine.vault s.engine.index) :
    FirstSyncKept P decrypt page entries watermarkSeq vault
      (s.applyItems items nextCursor watermarkSeq) := by
  unfold InitialSync.applyItems
  split
  · next hnil =>
    subst hnil
    rw [List.append_nil] at hentries
    unfold PagesAfter at hlater
    split at hlater
    · next hmore =>
      refine ⟨hvault, ⟨front, later, hentries, hlater, hfront⟩, hsaved, rfl, fun hfalse => ?_⟩
      exact absurd (hmore.symm.trans hfalse) Bool.noConfusion
    · next hlast =>
      have hnone : nextCursor = none := by
        cases nextCursor with
        | none => rfl
        | some text =>
          rw [truthy_some, decide_eq_true_eq, not_not] at hlast
          exact absurd (congrArg some hlast) hnext
      subst hnone
      rw [hlater, List.append_nil] at hentries
      exact ⟨hvault, upTo_none hstill.lists, hsaved, rfl, fun _ => hentries ▸ hfront⟩
  · exact ⟨hvault, hmemory, hsaved, rfl, hnext, front, later, hentries, hlater, hfront⟩

/-- The vault and the two indexes after a file of the manifest, whether it is indexed or not. -/
theorem FirstSyncKept.entry (h : FirstSyncKept P decrypt page entries watermarkSeq vault s)
    {entry : ManifestEntry} {result : Bool × Engine} (hentry : entry ∈ entries)
    (heffect : EntryEffect P decrypt entries entry s.engine result) :
    (∀ path, result.2.vault.readBytes path = vault.readBytes path ∨
      ∃ entry ∈ entries, entry.path = path ∧ FileInPlace P decrypt entry result.2.vault) ∧
    UpTo P decrypt page entries s.place.cursor result.2.vault result.2.index ∧
    UpTo P decrypt page entries s.saved.2.cursor result.2.vault s.saved.1 := by
  refine ⟨fun path => ?_, h.memory.mono heffect.files heffect.rows,
    h.saved.mono heffect.files fun _ _ h => h⟩
  rcases heffect.untouched path with hsame | hplaced
  · rcases h.untouched path with hbefore | ⟨other, hother, hpath, hfile⟩
    · exact Or.inl (hsame.trans hbefore)
    · exact Or.inr ⟨other, hother, hpath, heffect.files other hother hfile⟩
  · exact Or.inr ⟨entry, hentry, hplaced⟩

/-- The plugin is loaded again. -/
theorem FirstSyncKept.restart
    (hvault : ∀ path, vault'.readBytes path = vault.readBytes path ∨
      ∃ entry ∈ entries, entry.path = path ∧ FileInPlace P decrypt entry vault')
    (hsaved : UpTo P decrypt page entries s.saved.2.cursor vault' s.saved.1) :
    FirstSyncKept P decrypt page entries watermarkSeq vault (s.restart vault') :=
  ⟨hvault, hsaved, hsaved, trivial⟩

/-- What the run waits for happens. -/
theorem FirstSyncKept.goOn (hstill : StillManifest page entries watermarkSeq)
    (h : FirstSyncKept P decrypt page entries watermarkSeq vault s) (now : Time)
    (getContent : String → Option Bytes) :
    FirstSyncKept P decrypt page entries watermarkSeq vault
      (s.goOn P page { getContent, decrypt } now) := by
  have hphase := h.phase
  -- by what the run waits for
  cases hcase : s.phase with
  | idle =>
    simp only [InitialSync.goOn, hcase]
    exact h
  | returned =>
    simp only [InitialSync.goOn, hcase]
    exact h
  | asking =>
    simp only [InitialSync.goOn, hcase]
    cases hpage : page s.place.cursor with
    | error error => exact ⟨h.untouched, h.memory, h.saved, trivial⟩
    | ok read =>
      obtain ⟨front, rest, hentries, hrest, hfront⟩ := h.memory
      obtain ⟨later, hitems, hlater⟩ := hrest.answered hpage
      dsimp only
      rw [hstill.watermark _ _ hpage]
      refine applyItems hstill h.untouched h.memory h.saved (hstill.cursors _ _ hpage) ?_ hlater
        hfront
      rw [hentries, hitems, List.append_assoc]
  | applying items nextCursor watermark =>
    rw [hcase] at hphase
    obtain ⟨rfl, hnext, front, later, hentries, hlater, hfront⟩ := hphase
    cases items with
    | nil =>
      simp only [InitialSync.goOn, hcase]
      exact h
    | cons entry items =>
      have hentry : entry ∈ entries := by rw [hentries]; simp
      have heffect : EntryEffect P decrypt entries entry s.engine
          (applyManifestEntry P { getContent, decrypt } now entry s.engine) :=
        entryEffect P { getContent, decrypt } now s.engine (hstill.ids entry hentry)
          (hstill.paths entry hentry)
      simp only [InitialSync.goOn, hcase]
      generalize applyManifestEntry P { getContent, decrypt } now entry s.engine = result
        at heffect
      -- the entry is in place, or the run ends and the vault has only what is listed
      obtain ⟨hvault, hmemory, hsaved⟩ := h.entry hentry heffect
      obtain ⟨done, engine⟩ := result
      cases done with
      | false => exact ⟨hvault, hmemory, hsaved, trivial⟩
      | true =>
        have hentries' : entries = (front ++ [entry]) ++ items ++ later := by rw [hentries]; simp
        -- entries name different files and paths: the earlier ones stay in place
        have hfront' : AllInPlace P decrypt (front ++ [entry]) engine.vault engine.index := by
          intro other hother hwanted
          rcases List.mem_append.mp hother with hother | hother
          · have hmem : other ∈ entries := by
              rw [hentries, List.append_assoc]
              exact List.mem_append_left _ hother
            exact ⟨heffect.files other hmem (hfront other hother hwanted).1,
              heffect.rows other hmem (hfront other hother hwanted).2⟩
          · rw [List.mem_singleton.mp hother] at hwanted ⊢
            exact heffect.placed rfl hwanted
        exact applyItems hstill hvault hmemory hsaved hnext hentries' hlater hfront'
  | saving watermark =>
    rw [hcase] at hphase
    obtain ⟨rfl, hall⟩ := hphase
    simp only [InitialSync.goOn, hcase]
    split
    · exact ⟨h.untouched, h.memory, h.memory, trivial⟩
    · next hlast =>
      have hplaced := hall (Bool.eq_false_iff.mpr hlast)
      refine ⟨h.untouched, upTo_none hstill.lists, h.memory, ?_, ?_⟩
      · exact hplaced.mono (fun _ _ h => h) fun _ _ h => h.of_files rfl
      · exact le_max_right _ _
  | finishing =>
    rw [hcase] at hphase
    simp only [InitialSync.goOn, hcase]
    exact ⟨h.untouched, h.memory, h.memory, hphase.1, hphase.2, rfl⟩

theorem FirstSyncKept.step (hstill : StillManifest page entries watermarkSeq)
    (event : InitialSyncEvent) (h : FirstSyncKept P decrypt page entries watermarkSeq vault s) :
    FirstSyncKept P decrypt page entries watermarkSeq vault
      (initialSyncStep P decrypt page s event) := by
  cases event with
  | run =>
    simp only [initialSyncStep]
    split
    · exact ⟨h.untouched, h.memory, h.saved, trivial⟩
    · exact h
  | goesOn now getContent => exact h.goOn hstill now getContent
  | rejects =>
    simp only [initialSyncStep]
    split
    · exact h
    · exact ⟨h.untouched, h.memory, h.saved, trivial⟩
  | crashes => exact .restart h.untouched h.saved
  | crashesWritten now getContent =>
    simp only [initialSyncStep, InitialSync.writtenVault]
    split
    · next entry items nextCursor watermark hcase =>
      have hphase := h.phase
      rw [hcase] at hphase
      obtain ⟨-, -, front, later, hentries, -, -⟩ := hphase
      have hentry : entry ∈ entries := by rw [hentries]; simp
      have heffect : EntryEffect P decrypt entries entry s.engine
          (applyManifestEntry P { getContent, decrypt } now entry s.engine) :=
        entryEffect P { getContent, decrypt } now s.engine (hstill.ids entry hentry)
          (hstill.paths entry hentry)
      obtain ⟨hvault, -, hsaved⟩ := h.entry hentry heffect
      exact .restart hvault hsaved
    · exact .restart h.untouched h.saved

/-- **A first sync may be cut off anywhere.**  From any vault on, with any index that has no
cursor, however often a run is rejected or the plugin ends: a run that returns has put every file
of the manifest in place, with its row, and no file is touched that the manifest does not have. -/
theorem syncsSafely_run (hstill : StillManifest page entries watermarkSeq) {s : InitialSync}
    (hstart : s.place.cursor = none ∧ s.saved.2.cursor = none ∧ s.phase = .idle)
    (es : List InitialSyncEvent) :
    Run.Throughout (initialSyncStep P decrypt page)
      (SyncsSafely P decrypt entries watermarkSeq s.engine.vault) s es := by
  obtain ⟨hcursor, hsaved, hphase⟩ := hstart
  have hkept : FirstSyncKept P decrypt page entries watermarkSeq s.engine.vault s :=
    ⟨fun _ => Or.inl rfl, hcursor ▸ upTo_none hstill.lists, hsaved ▸ upTo_none hstill.lists,
      by rw [hphase]; trivial⟩
  exact (Run.throughout_of_step (fun _ e h => h.step hstill e) hkept es).mono
    fun _ h => h.syncsSafely

end

/-! ### A run that is not cut off -/

section

variable (P : Platform) (decrypt : Bytes → Option Bytes)

/-- The server has the content of the files. -/
def SendsContent (entries : List ManifestEntry) (getContent : String → Option Bytes) : Prop :=
  ∀ entry ∈ entries, entry.Wanted → ∃ stored bytes,
    getContent (entry.contentHash.getD "") = some stored ∧
    contentHash P stored = entry.contentHash.getD "" ∧ openedBytes decrypt entry stored = some bytes

/-- No file is in the way: what is under a path of the manifest has its hash, and content that is
written is read back. -/
structure Unobstructed (entries : List ManifestEntry) (vault : Vault) : Prop where
  free : ∀ entry ∈ entries, ∀ bytes, vault.readBytes entry.path = some bytes →
    contentHash P bytes = entry.contentHash.getD ""
  texts : ∀ entry ∈ entries, entry.contentEncoding = none → ∀ stored,
    contentHash P stored = entry.contentHash.getD "" → writtenBytes P entry.type stored = stored

end

section

variable {P : Platform} {decrypt : Bytes → Option Bytes}
  {page : Option String → Except SyncError ManifestPage} {entries : List ManifestEntry}
  {watermarkSeq n m : ℕ} {vault : Vault} {s : InitialSync} {nextCursor : Option String}

/-- A file that the server has is applied, where the file in its place has the hash. -/
theorem applyManifestEntry_succeeds {getContent : String → Option Bytes} {entry : ManifestEntry}
    {e : Engine} (now : Time) (hmem : entry ∈ entries)
    (hsends : SendsContent P decrypt entries getContent)
    (hcached : entry.contentEncoding = none → ∀ bytes, e.vault.readBytes entry.path = some bytes →
      contentHash P bytes = entry.contentHash.getD "") :
    (applyManifestEntry P { getContent, decrypt } now entry e).1 = true := by
  unfold applyManifestEntry
  split
  · rfl
  next hwanted =>
  have hwanted : entry.Wanted := by
    simp only [Bool.or_eq_true, Bool.not_eq_true', not_or, Bool.not_eq_true,
      Bool.not_eq_false] at hwanted
    exact hwanted
  have hfetched : ∃ stored bytes index,
      fetchEntry { getContent, decrypt } entry e = some (stored, index) ∧
        contentHash P stored = entry.contentHash.getD "" ∧
        openedBytes decrypt entry stored = some bytes := by
    unfold fetchEntry
    split
    · next hcache =>
      simp only [canUseLocalCache, Bool.and_eq_true, Option.isNone_iff_eq_none] at hcache
      obtain ⟨bytes, hread⟩ : ∃ bytes, e.vault.readBytes entry.path = some bytes := by
        rw [← Option.isSome_iff_exists, Vault.readBytes, Option.isSome_map]
        exact hcache.2
      refine ⟨bytes, bytes, e.index, by rw [hread]; rfl, hcached hcache.1.1 bytes hread, ?_⟩
      rw [openedBytes, hcache.1.1]
      rfl
    · obtain ⟨stored, bytes, hget, hhash, hopened⟩ := hsends entry hmem hwanted
      exact ⟨stored, bytes, _, by dsimp only; rw [hget]; rfl, hhash, hopened⟩
  obtain ⟨stored, bytes, index, hfetch, hhash, hopened⟩ := hfetched
  have hopened : ContentSource.opened { getContent, decrypt } entry.contentEncoding stored
      = some bytes := hopened
  rw [hfetch]
  dsimp only
  rw [if_neg (not_not.mpr hhash), hopened]

/-- The run returns within `n` steps that are not rejected. -/
def Ends (P : Platform) (decrypt : Bytes → Option Bytes)
    (page : Option String → Except SyncError ManifestPage) (entries : List ManifestEntry) (n : ℕ)
    (s : InitialSync) : Prop :=
  ∀ answers : List (Time × (String → Option Bytes)),
    (∀ answer ∈ answers, SendsContent P decrypt entries answer.2) → n ≤ answers.length →
      (Run.final (initialSyncStep P decrypt page) s
        (answers.map fun answer => .goesOn answer.1 answer.2)).phase = .returned

theorem ends_of_returned (h : s.phase = .returned) : Ends P decrypt page entries 0 s := by
  intro answers hsends hlength
  clear hlength
  induction answers generalizing s with
  | nil => exact h
  | cons answer answers ih =>
    have hstays : initialSyncStep P decrypt page s (.goesOn answer.1 answer.2) = s := by
      simp only [initialSyncStep, InitialSync.goOn, h]
    rw [List.map_cons, Run.final_cons, hstays]
    exact ih h fun other hother => hsends other (List.mem_cons_of_mem _ hother)

theorem ends_of_goOn (h : ∀ now getContent, SendsContent P decrypt entries getContent →
    Ends P decrypt page entries n (s.goOn P page { getContent, decrypt } now)) :
    Ends P decrypt page entries (n + 1) s := by
  intro answers hsends hlength
  cases answers with
  | nil => exact absurd hlength (Nat.not_succ_le_zero n)
  | cons answer answers =>
    refine h answer.1 answer.2 (hsends answer List.mem_cons_self) answers
      (fun other hother => hsends other (List.mem_cons_of_mem _ hother)) ?_
    exact Nat.le_of_succ_le_succ hlength

/-- After the last page. -/
theorem ends_of_lastSaving {watermark : ℕ} (h : s.phase = .saving watermark)
    (hlast : truthy s.place.cursor = false) : Ends P decrypt page entries 2 s := by
  refine ends_of_goOn fun now getContent _ => ends_of_goOn fun now' getContent' _ => ?_
  refine ends_of_returned ?_
  simp [InitialSync.goOn, h, hlast]

/-- The items of a page, where the run ends after them. -/
theorem ends_applyItems (hstill : StillManifest page entries watermarkSeq)
    (hfree : Unobstructed P entries vault) {watermark : ℕ}
    (hsaving : ∀ t : InitialSync, FirstSyncKept P decrypt page entries watermarkSeq vault t →
      t.phase = .saving watermark → t.place.cursor = nextCursor → Ends P decrypt page entries m t)
    (items : List ManifestEntry)
    (h : FirstSyncKept P decrypt page entries watermarkSeq vault
      (s.applyItems items nextCursor watermark)) :
    Ends P decrypt page entries (items.length + m) (s.applyItems items nextCursor watermark) := by
  induction items generalizing s with
  | nil =>
    rw [List.length_nil, Nat.zero_add]
    exact hsaving _ h rfl rfl
  | cons entry items ih =>
    rw [List.length_cons, Nat.add_right_comm]
    have hphase : (s.applyItems (entry :: items) nextCursor watermark).phase
        = .applying (entry :: items) nextCursor watermark := rfl
    generalize s.applyItems (entry :: items) nextCursor watermark = t at h hphase
    have hkept := h.phase
    rw [hphase] at hkept
    obtain ⟨-, -, front, later, hentries, -, -⟩ := hkept
    have hmem : entry ∈ entries := by rw [hentries]; simp
    refine ends_of_goOn fun now getContent hsends => ?_
    -- what is under the path was there before, or a run has put it there
    have hcached : entry.contentEncoding = none →
        ∀ bytes, t.engine.vault.readBytes entry.path = some bytes →
          contentHash P bytes = entry.contentHash.getD "" := by
      intro hplain bytes hread
      rcases h.untouched entry.path with hsame | ⟨other, hother, hpath, hfile⟩
      · exact hfree.free entry hmem bytes (hsame ▸ hread)
      · obtain rfl := hstill.paths other hother entry hmem hpath
        obtain ⟨stored, opened, hhash, hopened, hwritten⟩ := hfile
        rw [openedBytes, hplain] at hopened
        obtain rfl := Option.some.inj hopened
        rw [hwritten, hfree.texts other hmem hplain stored hhash, Option.some.injEq] at hread
        exact hread ▸ hhash
    have hgoes := h.goOn hstill now getContent
    have hdone : (applyManifestEntry P { getContent, decrypt } now entry t.engine).1 = true :=
      applyManifestEntry_succeeds now hmem hsends hcached
    have hnext : t.goOn P page { getContent, decrypt } now =
        InitialSync.applyItems { t with
          engine := (applyManifestEntry P { getContent, decrypt } now entry t.engine).2 }
          items nextCursor watermark := by
      simp only [InitialSync.goOn, hphase]
      generalize applyManifestEntry P { getContent, decrypt } now entry t.engine = result at hdone
      obtain ⟨done, engine⟩ := result
      cases hdone
      rfl
    rw [hnext] at hgoes ⊢
    exact ih hgoes

/-- The pages that are left. -/
theorem ends_of_asking (hstill : StillManifest page entries watermarkSeq)
    (hfree : Unobstructed P entries vault) {cursor : Option String} {rest : List ManifestEntry}
    (hpages : PagesFrom page cursor rest) :
    ∃ n, ∀ s : InitialSync, FirstSyncKept P decrypt page entries watermarkSeq vault s →
      s.phase = .asking → s.place.cursor = cursor → Ends P decrypt page entries n s := by
  obtain ⟨fuel, hfetch⟩ := hpages
  induction fuel generalizing cursor rest with
  | zero => cases hfetch
  | succ fuel ih =>
    rw [fetchManifest] at hfetch
    cases hread : page cursor with
    | error error =>
      rw [hread] at hfetch
      cases hfetch
    | ok read =>
      rw [hread] at hfetch
      dsimp only at hfetch
      have hsaving : ∃ m, ∀ t : InitialSync,
          FirstSyncKept P decrypt page entries watermarkSeq vault t →
          t.phase = .saving read.watermarkSeq → t.place.cursor = read.nextCursor →
            Ends P decrypt page entries m t := by
        split at hfetch
        · next hmore =>
          obtain ⟨later, hlater, -⟩ := Option.map_eq_some_iff.mp hfetch
          obtain ⟨n, hn⟩ := ih hlater
          refine ⟨n + 1, fun t ht hphase hcursor => ends_of_goOn fun now getContent _ => ?_⟩
          have hgoes := ht.goOn hstill now getContent
          have hasking : t.goOn P page { getContent, decrypt } now =
              { t.save with phase := .asking } := by
            simp only [InitialSync.goOn, hphase, hcursor, hmore, if_true]
          rw [hasking] at hgoes ⊢
          exact hn _ hgoes rfl hcursor
        · next hlast =>
          refine ⟨2, fun t _ hphase hcursor => ends_of_lastSaving hphase ?_⟩
          rw [hcursor]
          exact Bool.eq_false_iff.mpr hlast
      obtain ⟨m, hm⟩ := hsaving
      refine ⟨read.items.length + m + 1, fun s hs hphase hcursor =>
        ends_of_goOn fun now getContent _ => ?_⟩
      have hgoes := hs.goOn hstill now getContent
      have hitems : s.goOn P page { getContent, decrypt } now =
          s.applyItems read.items read.nextCursor read.watermarkSeq := by
        simp only [InitialSync.goOn, hphase, hcursor, hread]
      rw [hitems] at hgoes ⊢
      exact ends_applyItems hstill hfree hm read.items hgoes

/-- **A first sync that was cut off is finished by a run that is not.**  Whatever happened before,
a run returns once enough of what it waits for has happened, where the server has the content and
no file is in the way. -/
theorem resumes_run (hstill : StillManifest page entries watermarkSeq) {s : InitialSync}
    (hstart : s.place.cursor = none ∧ s.saved.2.cursor = none ∧ s.phase = .idle)
    (hfree : Unobstructed P entries s.engine.vault) (es : List InitialSyncEvent) :
    ∃ n, Ends P decrypt page entries n (initialSyncStep P decrypt page
      (initialSyncStep P decrypt page (Run.final (initialSyncStep P decrypt page) s es) .crashes)
      .run) := by
  obtain ⟨hcursor, hsaved, hphase⟩ := hstart
  have hkept : FirstSyncKept P decrypt page entries watermarkSeq s.engine.vault s :=
    ⟨fun _ => Or.inl rfl, hcursor ▸ upTo_none hstill.lists, hsaved ▸ upTo_none hstill.lists,
      by rw [hphase]; trivial⟩
  have hrun := Run.throughout_of_step (fun _ e h => FirstSyncKept.step hstill e h) hkept es
  have hfinal := hrun.final
  have hloaded := FirstSyncKept.step hstill .crashes hfinal
  obtain ⟨front, rest, -, hpages, -⟩ := hloaded.memory
  obtain ⟨n, hn⟩ := ends_of_asking hstill hfree hpages
  exact ⟨n, hn _ (hloaded.step hstill .run) rfl rfl⟩

end

/-! ### Over the tables -/

theorem SyncsSafely.of_perm {P : Platform} {decrypt : Bytes → Option Bytes}
    {entries entries' : List ManifestEntry} {watermarkSeq : ℕ} {vault : Vault} {s : InitialSync}
    (hperm : entries.Perm entries') (h : SyncsSafely P decrypt entries watermarkSeq vault s) :
    SyncsSafely P decrypt entries' watermarkSeq vault s where
  untouched path := by
    refine (h.untouched path).imp_right ?_
    rintro ⟨entry, hentry, hfile⟩
    exact ⟨entry, hperm.mem_iff.mp hentry, hfile⟩
  complete hphase := by
    obtain ⟨hall, hrest⟩ := h.complete hphase
    exact ⟨fun entry hentry => hall entry (hperm.mem_iff.mpr hentry), hrest⟩

section

variable (P : Platform) (vaultId : String) (collation : Collation) (db : Database)

/-- The pages of the manifest of a vault, from the tables. -/
def tablePage (limit : ℕ) : Option String → Except SyncError ManifestPage :=
  manifestPage P (PgOpDataStore.currentSeq db vaultId)
    fun cursor => PgOpDataStore.listManifest collation db vaultId cursor limit

/-- Where the live files of a vault are under different paths, its manifest is one to sync. -/
theorem exists_stillManifest {limit : ℕ} (hlimit : 1 ≤ limit)
    (hpaths : ∀ a ∈ liveFiles db.files.rows vaultId, ∀ b ∈ liveFiles db.files.rows vaultId,
      a.path = b.path → a = b) :
    ∃ entries, entries.Perm ((liveFiles db.files.rows vaultId).map StoredFile.toManifestEntry) ∧
      StillManifest (tablePage P vaultId collation db limit) entries
        (PgOpDataStore.currentSeq db vaultId) := by
  obtain ⟨fuel, entries, hfetch, hperm⟩ := listsLiveFiles_pg P vaultId collation db hlimit
  have hfrom : ∀ entry ∈ entries, ∃ file ∈ liveFiles db.files.rows vaultId,
      file.toManifestEntry = entry :=
    fun entry hentry => List.mem_map.mp (hperm.mem_iff.mp hentry)
  have hread : ∀ cursor read, tablePage P vaultId collation db limit cursor = .ok read →
      read.watermarkSeq = PgOpDataStore.currentSeq db vaultId ∧ read.nextCursor ≠ some "" := by
    intro cursor read h
    unfold tablePage manifestPage at h
    split at h
    · cases h
    · next place _ =>
      obtain rfl := Except.ok.inj h
      refine ⟨rfl, fun hempty => ?_⟩
      obtain ⟨next, -, htext⟩ := Option.map_eq_some_iff.mp hempty
      have htruthy := truthy_text next
      rw [htext] at htruthy
      exact Bool.noConfusion htruthy
  refine ⟨entries, hperm, ⟨fuel, hfetch⟩, fun cursor read h => (hread cursor read h).1,
    fun cursor read h => (hread cursor read h).2, ?_, ?_⟩
  · intro a ha b hb hid
    obtain ⟨file, hfile, rfl⟩ := hfrom a ha
    obtain ⟨other, hother, rfl⟩ := hfrom b hb
    rw [eq_of_mem_liveFiles db.files vaultId (fun _ _ _ hid => hid) file hfile other hother hid]
  · intro a ha b hb hpath
    obtain ⟨file, hfile, rfl⟩ := hfrom a ha
    obtain ⟨other, hother, rfl⟩ := hfrom b hb
    rw [hpaths file hfile other hother hpath]

variable {P vaultId collation db}

/-- **The first sync, over the tables.**  Where the live files of a vault are under different
paths and nothing is written meanwhile, a run that returns has put each of them in place and
brought `appliedSeq` up to the log, however often it was cut off before; and no run touches
another file. -/
theorem firstSync_safe {limit : ℕ} (hlimit : 1 ≤ limit)
    (hpaths : ∀ a ∈ liveFiles db.files.rows vaultId, ∀ b ∈ liveFiles db.files.rows vaultId,
      a.path = b.path → a = b) (decrypt : Bytes → Option Bytes) {s : InitialSync}
    (hstart : s.place.cursor = none ∧ s.saved.2.cursor = none ∧ s.phase = .idle)
    (es : List InitialSyncEvent) :
    Run.Throughout (initialSyncStep P decrypt (tablePage P vaultId collation db limit))
      (SyncsSafely P decrypt ((liveFiles db.files.rows vaultId).map StoredFile.toManifestEntry)
        (PgOpDataStore.currentSeq db vaultId) s.engine.vault) s es := by
  obtain ⟨entries, hperm, hstill⟩ := exists_stillManifest P vaultId collation db hlimit hpaths
  exact (syncsSafely_run hstill hstart es).mono fun _ h => h.of_perm hperm

/-- **And it is finished.**  Where the server has the content and no file is in the way, the
plugin that is loaded again after whatever happened needs so many answers, and the run returns. -/
theorem firstSync_resumes {limit : ℕ} (hlimit : 1 ≤ limit)
    (hpaths : ∀ a ∈ liveFiles db.files.rows vaultId, ∀ b ∈ liveFiles db.files.rows vaultId,
      a.path = b.path → a = b) (decrypt : Bytes → Option Bytes) {s : InitialSync}
    (hstart : s.place.cursor = none ∧ s.saved.2.cursor = none ∧ s.phase = .idle)
    (hfree : Unobstructed P ((liveFiles db.files.rows vaultId).map StoredFile.toManifestEntry)
      s.engine.vault) (es : List InitialSyncEvent) :
    ∃ n, Ends P decrypt (tablePage P vaultId collation db limit)
      ((liveFiles db.files.rows vaultId).map StoredFile.toManifestEntry) n
      (Run.final (initialSyncStep P decrypt (tablePage P vaultId collation db limit)) s
        (es ++ [.crashes, .run])) := by
  obtain ⟨entries, hperm, hstill⟩ := exists_stillManifest P vaultId collation db hlimit hpaths
  have hfree' : Unobstructed P entries s.engine.vault :=
    ⟨fun entry hentry => hfree.free entry (hperm.mem_iff.mp hentry),
      fun entry hentry => hfree.texts entry (hperm.mem_iff.mp hentry)⟩
  have hresumes : ∃ n, Ends P decrypt (tablePage P vaultId collation db limit) entries n _ :=
    resumes_run hstill hstart hfree' es
  obtain ⟨n, hn⟩ := hresumes
  refine ⟨n, fun answers hsends hlength => ?_⟩
  rw [Run.final_append]
  refine hn answers (fun answer hanswer entry hentry => ?_) hlength
  exact hsends answer hanswer entry (hperm.mem_iff.mp hentry)

end

/-! ### A first sync that is cut off -/

/-- A note with its content hash. -/
def sampleListedNote (fileId path text : String) : StoredFile :=
  { sampleManifestFile fileId path with contentHash := some (contentHashText samplePlatform text) }

/-- A note. -/
def sampleOne : StoredFile :=
  sampleListedNote "11111111-1111-4111-8111-111111111111" "a.md" "one"

/-- Another note. -/
def sampleTwo : StoredFile :=
  sampleListedNote "22222222-2222-4222-8222-222222222222" "b.md" "two"

/-- A vault with two notes. -/
def sampleTables : Database := { files := (Table.empty.set sampleOne).set sampleTwo }

/-- The contents of the two notes. -/
def sampleContents (hash : String) : Option Bytes :=
  (["one", "two"].find? fun text => contentHashText samplePlatform text = hash).map encodeText

/-- A device with an empty vault. -/
def sampleFirstDevice : InitialSync :=
  let index : LocalIndex := { device := { deviceId := "d1", vaultId := some "v" } }
  { engine := { index, outbox := OutboxManager.create "d1" 1 [] }, saved := (index, {}) }

/-- The plugin ends when the second note was written but not indexed; the next run goes on at the
second page. -/
def sampleCutOff : List InitialSyncEvent :=
  [.run, .goesOn 1 sampleContents, .goesOn 2 sampleContents, .goesOn 3 sampleContents,
    .goesOn 4 sampleContents, .crashesWritten 5 sampleContents]

theorem mem_liveFiles_sampleTables {file : StoredFile}
    (h : file ∈ liveFiles sampleTables.files.rows "v") : file = sampleOne ∨ file = sampleTwo := by
  have hrows : liveFiles sampleTables.files.rows "v" = [sampleOne, sampleTwo] := by decide +kernel
  simpa [hrows] using h

theorem paths_sampleTables : ∀ a ∈ liveFiles sampleTables.files.rows "v",
    ∀ b ∈ liveFiles sampleTables.files.rows "v", a.path = b.path → a = b := by
  intro a ha b hb
  rcases mem_liveFiles_sampleTables ha with rfl | rfl <;>
    rcases mem_liveFiles_sampleTables hb with rfl | rfl <;> decide +kernel

theorem firstSync_safe_sample :
    Run.Throughout (initialSyncStep samplePlatform some
        (tablePage samplePlatform "v" sampleCollation sampleTables 1))
      (SyncsSafely samplePlatform some
        ((liveFiles sampleTables.files.rows "v").map StoredFile.toManifestEntry)
        (PgOpDataStore.currentSeq sampleTables "v") sampleFirstDevice.engine.vault)
      sampleFirstDevice (sampleCutOff ++ .run :: List.replicate 6 (.goesOn 6 sampleContents)) ∧
    (Run.final (initialSyncStep samplePlatform some
        (tablePage samplePlatform "v" sampleCollation sampleTables 1)) sampleFirstDevice
      (sampleCutOff ++ .run :: List.replicate 6 (.goesOn 6 sampleContents))).phase = .returned :=
  ⟨firstSync_safe (by decide) paths_sampleTables some ⟨rfl, rfl, rfl⟩ _, by decide +kernel⟩

/-- The platform knows one text with each of these hashes. -/
theorem eq_of_contentHash_samplePlatform {stored : Bytes} {text : String}
    (htext : text = "one" ∨ text = "two")
    (h : contentHash samplePlatform stored = contentHashText samplePlatform text) :
    stored = encodeText text := by
  cases hfind : sampleDigests.find? fun entry => encodeText entry.1 = stored with
  | none =>
    have hnone : contentHash samplePlatform stored
        = String.ofList (hashPrefix.toList ++ toHex (List.replicate 32 0)) := by
      simp only [contentHash, samplePlatform, hfind]
    rw [hnone] at h
    rcases htext with rfl | rfl <;> exact absurd h (by decide +kernel)
  | some entry =>
    have hmem := List.mem_of_find?_eq_some hfind
    have hfound := List.find?_some hfind
    have hstored := of_decide_eq_true hfound
    subst hstored
    simp only [sampleDigests, List.mem_cons, List.not_mem_nil, or_false] at hmem
    rcases htext with rfl | rfl <;> rcases hmem with rfl | rfl | rfl | rfl <;>
      first | rfl | exact absurd h (by decide +kernel)

theorem unobstructed_sampleTables : Unobstructed samplePlatform
    ((liveFiles sampleTables.files.rows "v").map StoredFile.toManifestEntry)
    sampleFirstDevice.engine.vault where
  free _ _ _ hread := nomatch hread
  texts entry hentry _ stored hhash := by
    obtain ⟨file, hfile, rfl⟩ := List.mem_map.mp hentry
    rcases mem_liveFiles_sampleTables hfile with rfl | rfl
    · rw [eq_of_contentHash_samplePlatform (Or.inl rfl) hhash]
      decide +kernel
    · rw [eq_of_contentHash_samplePlatform (Or.inr rfl) hhash]
      decide +kernel

theorem firstSync_resumes_sample :
    ∃ n, Ends samplePlatform some (tablePage samplePlatform "v" sampleCollation sampleTables 1)
      ((liveFiles sampleTables.files.rows "v").map StoredFile.toManifestEntry) n
      (Run.final (initialSyncStep samplePlatform some
        (tablePage samplePlatform "v" sampleCollation sampleTables 1)) sampleFirstDevice
        (sampleCutOff ++ [.crashes, .run])) :=
  firstSync_resumes (by decide) paths_sampleTables some ⟨rfl, rfl, rfl⟩ unobstructed_sampleTables _

end ObsidianSync
