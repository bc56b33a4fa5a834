import ObsidianSync.Server.BlobRefs

/-!
# Exact blob references

The references stay exact over a run because the sides of an unresolved conflict
do not change: its row is frozen, and the op that opened it is in the log.  The
one write that breaks them is a create over a deleted row: it adds the reference
of the new blob and leaves that of the old one.

## Main definitions

* `SidesFrozen` — the invariant behind the references of sides.
* `NamesBlobs` — what is assumed of ops and rows.
* `KeepsTombstoneBlob` — no create takes a deleted row away from its blob.

## Main results

* `keptExact_serverStep`, `keepsTombstoneBlob_of_exactRefs` — one event, both ways.
* `exactRefs_iff_keepsTombstoneBlob` — the runs that keep the references exact.
-/

namespace ObsidianSync

/-! ### Sides -/

/-- Rows and conflicts are in the vault of their file, and the sides of an unresolved conflict
are those of its row, which is frozen, and of the op that opened it. -/
structure SidesFrozen (home : String → String) (s : Store) : Prop where
  fileVault : ∀ file ∈ s.files.rows, file.vaultId = home file.fileId
  conflictVault : ∀ c ∈ s.conflicts.rows, c.vaultId = home c.fileId
  ids : ∀ c ∈ s.conflicts.rows, c.conflictId ≠ ""
  named : ∀ file ∈ s.files.rows, BlobNamed file.contentHash file.blobRef
  row : ∀ c ∈ s.conflicts.rows, c.status ≠ .resolved → ∃ file ∈ s.files.rows,
    file.key = (c.vaultId, c.fileId) ∧ file.conflictId = some c.conflictId ∧
      c.oursHash = file.contentHash
  logged : ∀ op ∈ s.ops, ∀ id, op.conflictId = some id → ∃ c ∈ s.conflicts.rows, c.conflictId = id
  theirs : ∀ c ∈ s.conflicts.rows, c.status ≠ .resolved → BlobNamed c.theirsHash (theirsBlob s c)

section Sides

variable {home : String → String} {s t : Store}

/-- The row of an unresolved conflict has the blob of its side. -/
theorem oursBlob_of_row {c : ConflictRecord} {file : StoredFile} (hfile : file ∈ s.files.rows)
    (hkey : file.key = (c.vaultId, c.fileId)) : oursBlob s c = file.blobRef := by
  have hget : s.getFile c.vaultId c.fileId = some file :=
    Table.get?_eq_some_iff.mpr ⟨hfile, hkey⟩
  rw [oursBlob, hget]
  rfl

theorem SidesFrozen.ours (h : SidesFrozen home s) {c : ConflictRecord}
    (hc : c ∈ s.conflicts.rows) (hopen : c.status ≠ .resolved) :
    BlobNamed c.oursHash (oursBlob s c) := by
  obtain ⟨file, hfile, hkey, -, hhash⟩ := h.row c hc hopen
  rw [oursBlob_of_row hfile hkey, hhash]
  exact h.named file hfile

/-- A row that is not frozen has no unresolved conflict. -/
theorem SidesFrozen.resolved_of_thawed (h : SidesFrozen home s) {key : String × String}
    (hthawed : ∀ file ∈ s.files.rows, file.key = key → truthy file.conflictId = false)
    {c : ConflictRecord} (hc : c ∈ s.conflicts.rows) (hkey : (c.vaultId, c.fileId) = key) :
    c.status = .resolved := by
  by_contra hopen
  obtain ⟨file, hfile, hfileKey, hid, -⟩ := h.row c hc hopen
  have hfrozen := hthawed file hfile (hfileKey.trans hkey)
  rw [hid, truthy_some, decide_eq_false_iff_not, not_not] at hfrozen
  exact h.ids c hc hfrozen

/-- Two rows of one file are one row. -/
theorem SidesFrozen.key_of_fileId (h : SidesFrozen home s) {file : StoredFile}
    (hfile : file ∈ s.files.rows) {vaultId fileId : String} (hvault : vaultId = home fileId)
    (hid : file.fileId = fileId) : file.key = (vaultId, fileId) := by
  rw [StoredFile.key, h.fileVault file hfile, hid, hvault]

/-- The blob of the op that opened a conflict is found in a longer log too. -/
theorem theirsBlob_append {c : ConflictRecord} {entries : List StoredOp}
    (hops : t.ops = s.ops ++ entries)
    (hentries : ∀ op ∈ entries, op.conflictId ≠ some c.conflictId) :
    theirsBlob t c = theirsBlob s c := by
  have hnone : entries.find? (fun op => decide (op.conflictId = some c.conflictId)) = none := by
    rw [List.find?_eq_none]
    intro op hop
    simpa using hentries op hop
  rw [theirsBlob, theirsBlob, hops, List.find?_append, hnone, Option.or_none]

/-- The blob of the side of a conflict after a row was written. -/
theorem oursBlob_set {c : ConflictRecord} {file : StoredFile}
    (hfiles : t.files = s.files.set file) :
    oursBlob t c = if file.key = (c.vaultId, c.fileId) then file.blobRef else oursBlob s c := by
  rw [oursBlob, Store.getFile, hfiles, Table.get?_set]
  split
  · rfl
  · rfl

/-- **What an accepted op leaves of the sides that there are.**  It writes a row with the side
of the row's unresolved conflicts, if there are any. -/
theorem SidesFrozen.write (h : SidesFrozen home s) {file : StoredFile} {entries : List StoredOp}
    (hvault : file.vaultId = home file.fileId) (hnamed : BlobNamed file.contentHash file.blobRef)
    (hfiles : t.files = s.files.set file) (hconflicts : t.conflicts = s.conflicts)
    (hops : t.ops = s.ops ++ entries) (hentries : ∀ op ∈ entries, op.conflictId = none)
    (hside : ∀ c ∈ s.conflicts.rows, c.status ≠ .resolved → file.key = (c.vaultId, c.fileId) →
      file.conflictId = some c.conflictId ∧ c.oursHash = file.contentHash ∧
        file.blobRef = oursBlob s c) :
    SidesFrozen home t ∧ ∀ c ∈ s.conflicts.rows, c.status ≠ .resolved →
      oursBlob t c = oursBlob s c ∧ theirsBlob t c = theirsBlob s c := by
  -- the ops that are added opened no conflict
  have htheirs : ∀ c, theirsBlob t c = theirsBlob s c := by
    intro c
    refine theirsBlob_append hops fun op hop => ?_
    rw [hentries op hop]
    exact nofun
  have hmem : ∀ {g}, g ∈ t.files.rows ↔ g = file ∨ g ∈ s.files.rows ∧ g.key ≠ file.key := by
    intro g
    rw [hfiles]
    exact Table.mem_set_iff
  refine ⟨⟨?_, ?_, ?_, ?_, ?_, ?_, ?_⟩, ?_⟩
  · intro g hg
    rcases hmem.mp hg with rfl | ⟨hg, -⟩
    · exact hvault
    · exact h.fileVault g hg
  · rw [hconflicts]
    exact h.conflictVault
  · rw [hconflicts]
    exact h.ids
  · intro g hg
    rcases hmem.mp hg with rfl | ⟨hg, -⟩
    · exact hnamed
    · exact h.named g hg
  · intro c hc hopen
    rw [hconflicts] at hc
    by_cases hkey : file.key = (c.vaultId, c.fileId)
    · obtain ⟨hid, hhash, -⟩ := hside c hc hopen hkey
      exact ⟨file, hmem.mpr (Or.inl rfl), hkey, hid, hhash⟩
    · obtain ⟨g, hg, hgkey, hid, hhash⟩ := h.row c hc hopen
      refine ⟨g, hmem.mpr (Or.inr ⟨hg, fun heq => hkey ?_⟩), hgkey, hid, hhash⟩
      rw [← heq, hgkey]
  · rw [hops, hconflicts]
    intro op hop id hid
    rcases List.mem_append.mp hop with hop | hop
    · exact h.logged op hop id hid
    · rw [hentries op hop] at hid
      exact nomatch hid
  · intro c hc hopen
    rw [hconflicts] at hc
    rw [htheirs]
    exact h.theirs c hc hopen
  · intro c hc hopen
    refine ⟨?_, htheirs c⟩
    rw [oursBlob_set hfiles]
    split
    · next hkey => exact (hside c hc hopen hkey).2.2
    · rfl

/-- The references of rows after one was written: the rows of `old` are those whose reference
was taken back, if the blob is another one. -/
theorem live_set (h : SidesFrozen home s) (hexact : ExactRefs s) {file : StoredFile}
    (hvault : file.vaultId = home file.fileId) (hfiles : t.files = s.files.set file)
    {old : Option StoredFile} (hold : ∀ g ∈ old, g ∈ s.files.rows ∧ g.key = file.key)
    (hkeep : ∀ g ∈ s.files.rows, g.key = file.key → g ∉ old → ∀ hash, g.blobRef = some hash →
      file.blobRef = some hash)
    (hrefs : ∀ hash refId, { hash, refType := .fileLive, refId } ∈ t.blobRefs.rows ↔
      (file.blobRef = some hash ∧ refId = file.fileId) ∨
      { hash, refType := .fileLive, refId } ∈ s.blobRefs.rows ∧
        ∀ g ∈ old, g.blobRef = some hash → g.blobRef ≠ file.blobRef → refId ≠ g.fileId)
    (hash refId : String) :
    { hash, refType := .fileLive, refId } ∈ t.blobRefs.rows ↔
      ∃ g ∈ t.files.rows, g.blobRef = some hash ∧ g.fileId = refId := by
  have hmem : ∀ {g}, g ∈ t.files.rows ↔ g = file ∨ g ∈ s.files.rows ∧ g.key ≠ file.key := by
    intro g
    rw [hfiles]
    exact Table.mem_set_iff
  rw [hrefs hash refId, hexact.live hash refId]
  constructor
  · rintro (⟨hblob, rfl⟩ | ⟨⟨g, hg, hblob, rfl⟩, hremoved⟩)
    · exact ⟨file, hmem.mpr (Or.inl rfl), hblob, rfl⟩
    · by_cases hkey : g.key = file.key
      · -- the row itself: its blob is still there
        refine ⟨file, hmem.mpr (Or.inl rfl), ?_, (Prod.mk.inj hkey).2.symm⟩
        by_cases hin : g ∈ old
        · by_contra hne
          refine hremoved g hin hblob (fun heq => hne ?_) rfl
          rw [← heq, hblob]
        · exact hkeep g hg hkey hin hash hblob
      · exact ⟨g, hmem.mpr (Or.inr ⟨hg, hkey⟩), hblob, rfl⟩
  · rintro ⟨g, hg, hblob, rfl⟩
    rcases hmem.mp hg with rfl | ⟨hg, hkey⟩
    · exact Or.inl ⟨hblob, rfl⟩
    · refine Or.inr ⟨⟨g, hg, hblob, rfl⟩, fun f hf _ _ hid => hkey ?_⟩
      obtain ⟨-, hfkey⟩ := hold f hf
      rw [h.key_of_fileId hg hvault (hid.trans (Prod.mk.inj hfkey).2)]
      rfl

/-- The references of sides stay as they are where the sides do. -/
theorem sides_congr (hexact : ExactRefs s)
    (hrefs : ∀ hash refId, { hash, refType := .conflictSide, refId } ∈ t.blobRefs.rows ↔
      { hash, refType := .conflictSide, refId } ∈ s.blobRefs.rows)
    (hconflicts : t.conflicts = s.conflicts)
    (hsame : ∀ c ∈ s.conflicts.rows, c.status ≠ .resolved →
      oursBlob t c = oursBlob s c ∧ theirsBlob t c = theirsBlob s c) (hash refId : String) :
    { hash, refType := .conflictSide, refId } ∈ t.blobRefs.rows ↔
      ∃ c ∈ t.conflicts.rows, c.status ≠ .resolved ∧ SideRef t c hash refId := by
  rw [hrefs, hexact.sides, hconflicts]
  refine exists_congr fun c => and_congr_right fun hc => and_congr_right fun hopen => ?_
  rw [SideRef, SideRef, (hsame c hc hopen).1, (hsame c hc hopen).2]

end Sides

/-! ### Steps -/

/-- A store with the invariant and exact references. -/
structure KeptExact (home : String → String) (s : Store) : Prop where
  frozen : SidesFrozen home s
  exact : ExactRefs s

section Steps

variable {home : String → String} {P : Platform} {s t : Store}

/-- Writing a row, with the reference of the old one taken back. -/
theorem KeptExact.write (h : KeptExact home s) {file : StoredFile} {entries : List StoredOp}
    (hvault : file.vaultId = home file.fileId) (hnamed : BlobNamed file.contentHash file.blobRef)
    (hfiles : t.files = s.files.set file) (hconflicts : t.conflicts = s.conflicts)
    (hops : t.ops = s.ops ++ entries) (hentries : ∀ op ∈ entries, op.conflictId = none)
    (hside : ∀ c ∈ s.conflicts.rows, c.status ≠ .resolved → file.key = (c.vaultId, c.fileId) →
      file.conflictId = some c.conflictId ∧ c.oursHash = file.contentHash ∧
        file.blobRef = oursBlob s c)
    {old : Option StoredFile} (hold : ∀ g ∈ old, g ∈ s.files.rows ∧ g.key = file.key)
    (hkeep : ∀ g ∈ s.files.rows, g.key = file.key → g ∉ old → ∀ hash, g.blobRef = some hash →
      file.blobRef = some hash)
    (hmem : ∀ ref, ref ∈ t.blobRefs.rows ↔ (∃ hash, file.blobRef = some hash ∧
      ref = { hash, refType := .fileLive, refId := file.fileId }) ∨
      ref ∈ s.blobRefs.rows ∧ ∀ g ∈ old, ∀ hash, g.blobRef = some hash →
        g.blobRef ≠ file.blobRef → ref ≠ { hash, refType := .fileLive, refId := g.fileId }) :
    KeptExact home t := by
  obtain ⟨hfrozen, hsame⟩ :=
    h.frozen.write hvault hnamed hfiles hconflicts hops hentries hside
  refine ⟨hfrozen, live_set h.frozen h.exact hvault hfiles hold hkeep ?_,
    sides_congr h.exact ?_ hconflicts hsame⟩
  · intro hash refId
    rw [hmem]
    simp only [BlobRef.mk.injEq, ne_eq, true_and]
    refine or_congr ?_ (and_congr_right fun _ => forall_congr' fun g => forall_congr' fun _ => ?_)
    · constructor
      · rintro ⟨hash', hblob, rfl, rfl⟩
        exact ⟨hblob, rfl⟩
      · rintro ⟨hblob, rfl⟩
        exact ⟨hash, hblob, rfl, rfl⟩
    · constructor
      · exact fun hne hblob hmoved hid => hne hash hblob hmoved ⟨rfl, hid⟩
      · rintro hne hash' hblob hmoved ⟨rfl, hid⟩
        exact hne hblob hmoved hid
  · intro hash refId
    rw [hmem]
    simp

/-- Replacing the content of a row that is not frozen. -/
theorem KeptExact.replace (h : KeptExact home s) {file : StoredFile} {entries : List StoredOp}
    (hvault : file.vaultId = home file.fileId) (hnamed : BlobNamed file.contentHash file.blobRef)
    (hfiles : t.files = s.files.set file) (hconflicts : t.conflicts = s.conflicts)
    (hops : t.ops = s.ops ++ entries) (hentries : ∀ op ∈ entries, op.conflictId = none)
    (hthawed : ∀ g ∈ s.files.rows, g.key = file.key → truthy g.conflictId = false)
    {old : Option StoredFile} (hold : ∀ g ∈ old, g ∈ s.files.rows ∧ g.key = file.key)
    (hkeep : ∀ g ∈ s.files.rows, g.key = file.key → g ∉ old → ∀ hash, g.blobRef = some hash →
      file.blobRef = some hash)
    (hrefs : t.blobRefs = (updateBlobRefs s old file).blobRefs) : KeptExact home t := by
  refine h.write hvault hnamed hfiles hconflicts hops hentries ?_ hold hkeep fun ref => ?_
  · intro c hc hopen hkey
    exact absurd (h.frozen.resolved_of_thawed hthawed hc hkey.symm) hopen
  · rw [hrefs]
    exact mem_updateBlobRefs (fun g hg => h.frozen.named g (hold g hg).1) hnamed

/-- A row that is written with the blob it had has its reference. -/
theorem KeptExact.mem_live (h : KeptExact home s) {row file : StoredFile}
    (hrow : row ∈ s.files.rows) (hkey : file.key = row.key) (hblob : file.blobRef = row.blobRef)
    {hash : String} (hhash : file.blobRef = some hash) :
    { hash, refType := .fileLive, refId := file.fileId } ∈ s.blobRefs.rows :=
  (h.exact.live hash file.fileId).mpr
    ⟨row, hrow, hblob.symm.trans hhash, (Prod.mk.inj hkey).2.symm⟩

/-- The row of an unresolved conflict is the row under its key. -/
theorem SidesFrozen.side_of_row (h : SidesFrozen home s) {row file : StoredFile}
    (hrow : row ∈ s.files.rows) (hkey : file.key = row.key) {c : ConflictRecord}
    (hc : c ∈ s.conflicts.rows) (hopen : c.status ≠ .resolved)
    (hkeyc : file.key = (c.vaultId, c.fileId)) :
    row.conflictId = some c.conflictId ∧ c.oursHash = row.contentHash ∧
      row.blobRef = oursBlob s c := by
  obtain ⟨g, hg, hgkey, hid, hhash⟩ := h.row c hc hopen
  have hsame : g = row := Table.eq_of_key_eq hg hrow (hgkey.trans (hkeyc.symm.trans hkey))
  rw [← hsame]
  exact ⟨hid, hhash, (oursBlob_of_row hg hgkey).symm⟩

/-- Writing a row with the content it had. -/
theorem KeptExact.keep (h : KeptExact home s) {row file : StoredFile} {entries : List StoredOp}
    (hrow : row ∈ s.files.rows) (hkey : file.key = row.key)
    (hid : file.conflictId = row.conflictId) (hhash : file.contentHash = row.contentHash)
    (hblob : file.blobRef = row.blobRef) (hfiles : t.files = s.files.set file)
    (hconflicts : t.conflicts = s.conflicts) (hops : t.ops = s.ops ++ entries)
    (hentries : ∀ op ∈ entries, op.conflictId = none) (hrefs : t.blobRefs = s.blobRefs) :
    KeptExact home t := by
  have hvault : file.vaultId = home file.fileId := by
    rw [(Prod.mk.inj hkey).1, (Prod.mk.inj hkey).2]
    exact h.frozen.fileVault row hrow
  have hnamed : BlobNamed file.contentHash file.blobRef := by
    rw [hhash, hblob]
    exact h.frozen.named row hrow
  have hold : ∀ g ∈ (none : Option StoredFile), g ∈ s.files.rows ∧ g.key = file.key :=
    fun g hg => absurd hg (Option.not_mem_none g)
  refine h.write hvault hnamed hfiles hconflicts hops hentries ?_ hold ?_ ?_
  · intro c hc hopen hkeyc
    rw [hid, hhash, hblob]
    exact h.frozen.side_of_row hrow hkey hc hopen hkeyc
  · intro g hg hgkey _ hash hgblob
    rw [hblob, ← Table.eq_of_key_eq hg hrow (hgkey.trans hkey)]
    exact hgblob
  · intro ref
    rw [hrefs]
    constructor
    · exact fun hmem => Or.inr ⟨hmem, fun g hg => absurd hg (Option.not_mem_none g)⟩
    · rintro (⟨hash, hsome, rfl⟩ | ⟨hmem, -⟩)
      · exact h.mem_live hrow hkey hblob hsome
      · exact hmem

/-- No unresolved conflict is of a file whose row is not frozen. -/
theorem SidesFrozen.conflictOf_eq (h : SidesFrozen home s) (uuid : Uuid) {op : FileOp}
    {row : StoredFile} (hvault : op.vaultId = home op.fileId) (hrow : opRow op s = some row)
    (hthawed : truthy row.conflictId = false) :
    conflictOf uuid op row s = (openedConflict uuid op row,
      { s with conflicts := s.conflicts.set (openedConflict uuid op row) }) := by
  refine conflictOf_of_resolved fun c hc hfile => ?_
  have hthawed' : ∀ file ∈ s.files.rows, file.key = (op.vaultId, op.fileId) →
      truthy file.conflictId = false := by
    intro file hmem hkey
    have hget : opRow op s = some file := Table.get?_eq_some_iff.mpr ⟨hmem, hkey⟩
    rw [hrow, Option.some.injEq] at hget
    rw [← hget]
    exact hthawed
  refine h.resolved_of_thawed hthawed' hc ?_
  rw [h.conflictVault c hc, hfile, ← hvault]

/-- The row an opened conflict leaves. -/
def conflictedFile (now : Time) (uuid : Uuid) (row : StoredFile) : StoredFile :=
  { row with conflictId := some uuid.1, updatedAt := now }

/-- What opening a conflict writes. -/
structure Opens (now : Time) (uuid : Uuid) (op : FileOp) (row : StoredFile) (s t : Store) :
    Prop where
  found : opRow op s = some row
  thawed : truthy row.conflictId = false
  fresh : s.getConflict uuid.1 = none
  files : t.files = s.files.set (conflictedFile now uuid row)
  conflicts : t.conflicts = s.conflicts.set (openedConflict uuid op row)
  ops : ∃ entry : StoredOp, t.ops = s.ops ++ [entry] ∧ entry.conflictId = some uuid.1 ∧
    entry.payload = op
  blobRefs : t.blobRefs = (addConflictRefs s uuid.1 row.blobRef op.blobRef).blobRefs

/-- The sides of the conflicts after one was opened. -/
theorem sides_opens {now : Time} {uuid : Uuid} {op : FileOp} {row : StoredFile}
    (h : SidesFrozen home s) (ho : Opens now uuid op row s t) :
    theirsBlob t (openedConflict uuid op row) = op.blobRef ∧
    (∀ c, oursBlob t c = oursBlob s c) ∧
    ∀ c ∈ s.conflicts.rows, c.conflictId ≠ uuid.1 ∧ theirsBlob t c = theirsBlob s c := by
  obtain ⟨entry, hops, hid, hpayload⟩ := ho.ops
  have hunused : ∀ c ∈ s.conflicts.rows, c.conflictId ≠ uuid.1 :=
    Table.get?_eq_none_iff.mp ho.fresh
  refine ⟨?_, ?_, fun c hc => ⟨hunused c hc, ?_⟩⟩
  · have hnone : s.ops.find? (fun e => decide (e.conflictId = some uuid.1)) = none := by
      rw [List.find?_eq_none]
      intro e he heq
      obtain ⟨c, hc, hcid⟩ := h.logged e he uuid.1 (by simpa using heq)
      exact hunused c hc hcid
    have hfound : t.ops.find? (fun e => decide (e.conflictId = some uuid.1)) = some entry := by
      rw [hops, List.find?_append, hnone, Option.none_or]
      simp [hid]
    rw [theirsBlob, openedConflict, hfound, Option.bind_some, hpayload]
  · intro c
    rw [oursBlob_set ho.files]
    split
    · next hkey =>
      exact (oursBlob_of_row (Table.mem_of_get? ho.found) hkey).symm
    · rfl
  · refine theirsBlob_append hops fun e he => ?_
    rw [List.mem_singleton.mp he, hid]
    exact fun heq => hunused c hc (Option.some.inj heq).symm

/-- Opening a conflict keeps the invariant. -/
theorem SidesFrozen.open {now : Time} {uuid : Uuid} {op : FileOp} {row : StoredFile}
    (h : SidesFrozen home s) (hvault : op.vaultId = home op.fileId)
    (hnamed : BlobNamed op.contentHash op.blobRef) (ho : Opens now uuid op row s t) :
    SidesFrozen home t := by
  have hrow : row ∈ s.files.rows := Table.mem_of_get? ho.found
  have hkey : row.key = (op.vaultId, op.fileId) := key_of_opRow ho.found
  obtain ⟨htheirs, -, hothers⟩ := sides_opens h ho
  have hfile : ∀ {g}, g ∈ t.files.rows → ∃ g' ∈ s.files.rows, g.key = g'.key ∧
      g.contentHash = g'.contentHash ∧ g.blobRef = g'.blobRef := by
    intro g hg
    rw [ho.files] at hg
    rcases Table.mem_set_iff.mp hg with rfl | ⟨hg, -⟩
    · exact ⟨row, hrow, rfl, rfl, rfl⟩
    · exact ⟨g, hg, rfl, rfl, rfl⟩
  have hconflict : ∀ {c}, c ∈ t.conflicts.rows →
      c = openedConflict uuid op row ∨ c ∈ s.conflicts.rows := by
    intro c hc
    rw [ho.conflicts] at hc
    exact (Table.mem_set_iff.mp hc).imp_right And.left
  refine ⟨?_, ?_, ?_, ?_, ?_, ?_, ?_⟩
  · intro g hg
    obtain ⟨g', hg', hsame, -⟩ := hfile hg
    rw [(Prod.mk.inj hsame).1, (Prod.mk.inj hsame).2]
    exact h.fileVault g' hg'
  · intro c hc
    rcases hconflict hc with rfl | hc
    · exact hvault
    · exact h.conflictVault c hc
  · intro c hc
    rcases hconflict hc with rfl | hc
    · exact uuid.2
    · exact h.ids c hc
  · intro g hg
    obtain ⟨g', hg', -, hhash, hblob⟩ := hfile hg
    rw [hhash, hblob]
    exact h.named g' hg'
  · intro c hc hopen
    rw [ho.files]
    rcases hconflict hc with rfl | hc
    · exact ⟨_, Table.mem_set_iff.mpr (Or.inl rfl), hkey, rfl, rfl⟩
    · obtain ⟨g, hg, hgkey, hid, hhash⟩ := h.row c hc hopen
      refine ⟨g, Table.mem_set_iff.mpr (Or.inr ⟨hg, fun heq => ?_⟩), hgkey, hid, hhash⟩
      -- the row of the new conflict was not frozen
      have hsame : g = row := Table.eq_of_key_eq hg hrow heq
      have hthawed := ho.thawed
      rw [← hsame, hid, truthy_some, decide_eq_false_iff_not, not_not] at hthawed
      exact h.ids c hc hthawed
  · obtain ⟨entry, hops, hid, -⟩ := ho.ops
    rw [hops, ho.conflicts]
    intro e he id heq
    rcases List.mem_append.mp he with he | he
    · obtain ⟨c, hc, hcid⟩ := h.logged e he id heq
      exact ⟨c, Table.mem_set_iff.mpr (Or.inr ⟨hc, (hothers c hc).1⟩), hcid⟩
    · rw [List.mem_singleton.mp he, hid, Option.some.injEq] at heq
      exact ⟨_, Table.mem_set_iff.mpr (Or.inl rfl), heq⟩
  · intro c hc hopen
    rcases hconflict hc with rfl | hc
    · rw [htheirs]
      intro blob hblob
      obtain ⟨hne, hhash⟩ := hnamed blob hblob
      exact ⟨hne, by rw [openedConflict, hhash]; rfl⟩
    · rw [(hothers c hc).2]
      exact h.theirs c hc hopen

/-- **Opening a conflict** adds the references of its sides. -/
theorem KeptExact.open {now : Time} {uuid : Uuid} {op : FileOp} {row : StoredFile}
    (h : KeptExact home s) (hvault : op.vaultId = home op.fileId)
    (hnamed : BlobNamed op.contentHash op.blobRef) (ho : Opens now uuid op row s t) :
    KeptExact home t := by
  have hrow : row ∈ s.files.rows := Table.mem_of_get? ho.found
  obtain ⟨htheirs, hours, hothers⟩ := sides_opens h.frozen ho
  have hmem : ∀ ref, ref ∈ t.blobRefs.rows ↔ (∃ hash, row.blobRef = some hash ∧
        ref = { hash, refType := .conflictSide, refId := uuid.1 ++ ":ours" }) ∨
      (∃ hash, op.blobRef = some hash ∧
        ref = { hash, refType := .conflictSide, refId := uuid.1 ++ ":theirs" }) ∨
      ref ∈ s.blobRefs.rows := by
    intro ref
    rw [ho.blobRefs]
    exact mem_addConflictRefs (h.frozen.named row hrow).truthy_eq hnamed.truthy_eq
  -- no reference of the row is dropped
  have hold : ∀ g ∈ (none : Option StoredFile), g ∈ s.files.rows ∧
      g.key = (conflictedFile now uuid row).key :=
    fun g hg => absurd hg (Option.not_mem_none g)
  have hfileVault : (conflictedFile now uuid row).vaultId
      = home (conflictedFile now uuid row).fileId := h.frozen.fileVault row hrow
  refine ⟨h.frozen.open hvault hnamed ho,
    live_set h.frozen h.exact hfileVault ho.files hold ?_ ?_, ?_⟩
  · intro g hg hgkey _ hash hgblob
    rw [Table.eq_of_key_eq hg hrow hgkey] at hgblob
    exact hgblob
  · intro hash refId
    rw [hmem]
    constructor
    · rintro (⟨_, _, heq⟩ | ⟨_, _, heq⟩ | hin)
      · exact nomatch (BlobRef.mk.inj heq).2.1
      · exact nomatch (BlobRef.mk.inj heq).2.1
      · exact Or.inr ⟨hin, fun g hg => absurd hg (Option.not_mem_none g)⟩
    · rintro (⟨hblob, rfl⟩ | ⟨hin, -⟩)
      · exact Or.inr (Or.inr ((h.exact.live hash row.fileId).mpr ⟨row, hrow, hblob, rfl⟩))
      · exact Or.inr (Or.inr hin)
  · intro hash refId
    -- the sides of the new conflict are the row and the op; the others stay as they were
    have hnew : SideRef t (openedConflict uuid op row) hash refId ↔
        row.blobRef = some hash ∧ refId = uuid.1 ++ ":ours" ∨
          op.blobRef = some hash ∧ refId = uuid.1 ++ ":theirs" := by
      rw [SideRef, htheirs, hours, oursBlob_of_row hrow (key_of_opRow ho.found)]
      rfl
    have hsame : ∀ c ∈ s.conflicts.rows, SideRef t c hash refId ↔ SideRef s c hash refId := by
      intro c hc
      rw [SideRef, SideRef, hours, (hothers c hc).2]
    rw [hmem, h.exact.sides, ho.conflicts]
    constructor
    · rintro (⟨hash', hblob, heq⟩ | ⟨hash', hblob, heq⟩ | ⟨c, hc, hopen, href⟩)
      · obtain ⟨rfl, -, rfl⟩ := BlobRef.mk.inj heq
        exact ⟨_, Table.mem_set_iff.mpr (Or.inl rfl), nofun, hnew.mpr (Or.inl ⟨hblob, rfl⟩)⟩
      · obtain ⟨rfl, -, rfl⟩ := BlobRef.mk.inj heq
        exact ⟨_, Table.mem_set_iff.mpr (Or.inl rfl), nofun, hnew.mpr (Or.inr ⟨hblob, rfl⟩)⟩
      · exact ⟨c, Table.mem_set_iff.mpr (Or.inr ⟨hc, (hothers c hc).1⟩), hopen,
          (hsame c hc).mpr href⟩
    · rintro ⟨c, hc, hopen, href⟩
      rcases Table.mem_set_iff.mp hc with rfl | ⟨hc, -⟩
      · rcases hnew.mp href with ⟨hblob, rfl⟩ | ⟨hblob, rfl⟩
        · exact Or.inl ⟨hash, hblob, rfl⟩
        · exact Or.inr (Or.inl ⟨hash, hblob, rfl⟩)
      · exact Or.inr (Or.inr ⟨c, hc, hopen, (hsame c hc).mp href⟩)

/-- Two versions of a record with the same sides. -/
structure SameSides (c d : ConflictRecord) : Prop where
  vaultId : d.vaultId = c.vaultId
  fileId : d.fileId = c.fileId
  conflictId : d.conflictId = c.conflictId
  oursHash : d.oursHash = c.oursHash
  theirsHash : d.theirsHash = c.theirsHash
  status : d.status = .resolved ↔ c.status = .resolved

/-- The blobs of the sides of a record, in a store with the same rows and log. -/
theorem SameSides.blobs {c d : ConflictRecord} (h : SameSides c d) (hfiles : t.files = s.files)
    (hops : t.ops = s.ops) : oursBlob t d = oursBlob s c ∧ theirsBlob t d = theirsBlob s c := by
  constructor
  · rw [oursBlob, oursBlob, Store.getFile, Store.getFile, hfiles, h.vaultId, h.fileId]
  · rw [theirsBlob, theirsBlob, hops, h.conflictId]

/-- Rewriting records with the sides they had. -/
theorem KeptExact.recast (h : KeptExact home s) (hfiles : t.files = s.files)
    (hops : t.ops = s.ops) (hrefs : t.blobRefs = s.blobRefs)
    (hback : ∀ d ∈ t.conflicts.rows, ∃ c ∈ s.conflicts.rows, SameSides c d)
    (hforth : ∀ c ∈ s.conflicts.rows, ∃ d ∈ t.conflicts.rows, SameSides c d) :
    KeptExact home t := by
  have hframe := h.frozen
  refine ⟨⟨?_, ?_, ?_, ?_, ?_, ?_, ?_⟩, ⟨?_, ?_⟩⟩
  · rw [hfiles]
    exact hframe.fileVault
  · intro d hd
    obtain ⟨c, hc, hsame⟩ := hback d hd
    rw [hsame.vaultId, hsame.fileId]
    exact hframe.conflictVault c hc
  · intro d hd
    obtain ⟨c, hc, hsame⟩ := hback d hd
    rw [hsame.conflictId]
    exact hframe.ids c hc
  · rw [hfiles]
    exact hframe.named
  · rw [hfiles]
    intro d hd hopen
    obtain ⟨c, hc, hsame⟩ := hback d hd
    rw [hsame.vaultId, hsame.fileId, hsame.conflictId, hsame.oursHash]
    exact hframe.row c hc fun hresolved => hopen (hsame.status.mpr hresolved)
  · rw [hops]
    intro op hop id hid
    obtain ⟨c, hc, hcid⟩ := hframe.logged op hop id hid
    obtain ⟨d, hd, hsame⟩ := hforth c hc
    exact ⟨d, hd, hsame.conflictId.trans hcid⟩
  · intro d hd hopen
    obtain ⟨c, hc, hsame⟩ := hback d hd
    rw [hsame.theirsHash, (hsame.blobs hfiles hops).2]
    exact hframe.theirs c hc fun hresolved => hopen (hsame.status.mpr hresolved)
  · rw [hfiles, hrefs]
    exact h.exact.live
  · intro hash refId
    have hside : ∀ {c d}, SameSides c d → (SideRef t d hash refId ↔ SideRef s c hash refId) := by
      intro c d hsame
      obtain ⟨hours, htheirs⟩ := hsame.blobs hfiles hops
      rw [SideRef, SideRef, hours, htheirs, hsame.conflictId]
    rw [hrefs, h.exact.sides]
    constructor
    · rintro ⟨c, hc, hopen, href⟩
      obtain ⟨d, hd, hsame⟩ := hforth c hc
      exact ⟨d, hd, fun hresolved => hopen (hsame.status.mp hresolved), (hside hsame).mpr href⟩
    · rintro ⟨d, hd, hopen, href⟩
      obtain ⟨c, hc, hsame⟩ := hback d hd
      exact ⟨c, hc, fun hresolved => hopen (hsame.status.mpr hresolved), (hside hsame).mp href⟩

/-- Nothing that matters to the references changed. -/
theorem KeptExact.idle (h : KeptExact home s) (hfiles : t.files = s.files)
    (hconflicts : t.conflicts = s.conflicts) (hops : t.ops = s.ops)
    (hrefs : t.blobRefs = s.blobRefs) : KeptExact home t := by
  have hsame : ∀ c, SameSides c c := fun c => ⟨rfl, rfl, rfl, rfl, rfl, Iff.rfl⟩
  refine h.recast hfiles hops hrefs ?_ ?_
  · rw [hconflicts]
    exact fun c hc => ⟨c, hc, hsame c⟩
  · rw [hconflicts]
    exact fun c hc => ⟨c, hc, hsame c⟩

/-- Taking or giving back a claim. -/
theorem KeptExact.claim (h : KeptExact home s) {current : ConflictRecord}
    {status : ConflictStatus} {claimedBy : Option String} (hmem : current ∈ s.conflicts.rows)
    (hcurrent : current.status ≠ .resolved) (hstatus : status ≠ .resolved)
    (ht : t = { s with conflicts := s.conflicts.set { current with status, claimedBy } }) :
    KeptExact home t := by
  subst ht
  have hsame : SameSides current { current with status, claimedBy } :=
    ⟨rfl, rfl, rfl, rfl, rfl, by simp [hstatus, hcurrent]⟩
  refine h.recast rfl rfl rfl ?_ ?_
  · intro d hd
    rcases Table.mem_set_iff.mp hd with rfl | ⟨hd, -⟩
    · exact ⟨current, hmem, hsame⟩
    · exact ⟨d, hd, ⟨rfl, rfl, rfl, rfl, rfl, Iff.rfl⟩⟩
  · intro c hc
    by_cases hid : c.conflictId = current.conflictId
    · rw [Table.eq_of_key_eq hc hmem hid]
      exact ⟨_, Table.mem_set_iff.mpr (Or.inl rfl), hsame⟩
    · exact ⟨c, Table.mem_set_iff.mpr (Or.inr ⟨hc, hid⟩), ⟨rfl, rfl, rfl, rfl, rfl, Iff.rfl⟩⟩

/-- What a resolution writes. -/
structure ResolvesTo (now : Time) (input : ResolveInput) (r : Resolution) (s t : Store) :
    Prop where
  resolves : Resolves input s r
  files : t.files = s.files.set (resolvedFile now input r.conflict r.content r.file)
  conflicts : t.conflicts = s.conflicts.set (resolvedConflict input r.conflict r.content)
  ops : t.ops = s.ops
  blobRefs : t.blobRefs = (resolutionRefs input r.conflict r.content r.file s).blobRefs

/-- What is left unresolved after a resolution was unresolved before, and its row is another
one. -/
theorem unresolved_resolvesTo {now : Time} {input : ResolveInput} {r : Resolution}
    (hr : ResolvesTo now input r s t) {c : ConflictRecord} :
    c ∈ t.conflicts.rows ∧ c.status ≠ .resolved ↔
      c ∈ s.conflicts.rows ∧ c.status ≠ .resolved ∧ c.conflictId ≠ r.conflict.conflictId := by
  rw [hr.conflicts, Table.mem_set_iff]
  constructor
  · rintro ⟨rfl | ⟨hc, hid⟩, hopen⟩
    · exact absurd rfl hopen
    · exact ⟨hc, hopen, hid⟩
  · rintro ⟨hc, hopen, hid⟩
    exact ⟨Or.inr ⟨hc, hid⟩, hopen⟩

/-- The rows of the conflicts that are left are not the row of the resolved one. -/
theorem key_ne_of_unresolved {input : ResolveInput} {r : Resolution} (h : SidesFrozen home s)
    (hr : Resolves input s r) {c : ConflictRecord} (hc : c ∈ s.conflicts.rows)
    (hopen : c.status ≠ .resolved) (hid : c.conflictId ≠ r.conflict.conflictId) :
    r.file.key ≠ (c.vaultId, c.fileId) := by
  intro hkey
  have hown := h.side_of_row hr.file rfl hr.conflict hr.pending.2.2
    (pending_iff.mp hr.pending).1.symm
  have hother := h.side_of_row hr.file rfl hc hopen hkey
  rw [hown.1, Option.some.injEq] at hother
  exact hid hother.1.symm

/-- Resolving a conflict keeps the invariant. -/
theorem SidesFrozen.resolve {now : Time} {input : ResolveInput} {r : Resolution}
    (h : SidesFrozen home s) (hr : ResolvesTo now input r s t)
    (hnamed : BlobNamed (some r.content.hash) r.content.blobRef) : SidesFrozen home t := by
  have hfile : ∀ {g}, g ∈ t.files.rows →
      g = resolvedFile now input r.conflict r.content r.file ∨
        g ∈ s.files.rows ∧ g.key ≠ r.file.key := by
    intro g hg
    rw [hr.files] at hg
    exact Table.mem_set_iff.mp hg
  -- a resolution changes no vault, file or id of a record
  have hrecord : ∀ {c}, c ∈ t.conflicts.rows → ∃ c' ∈ s.conflicts.rows,
      c.vaultId = c'.vaultId ∧ c.fileId = c'.fileId ∧ c.conflictId = c'.conflictId := by
    intro c hc
    rw [hr.conflicts] at hc
    rcases Table.mem_set_iff.mp hc with rfl | ⟨hc, -⟩
    · exact ⟨r.conflict, hr.resolves.conflict, rfl, rfl, rfl⟩
    · exact ⟨c, hc, rfl, rfl, rfl⟩
  refine ⟨?_, ?_, ?_, ?_, ?_, ?_, ?_⟩
  · intro g hg
    rcases hfile hg with rfl | ⟨hg, -⟩
    · exact h.fileVault r.file hr.resolves.file
    · exact h.fileVault g hg
  · intro c hc
    obtain ⟨c', hc', hvault, hid, -⟩ := hrecord hc
    rw [hvault, hid]
    exact h.conflictVault c' hc'
  · intro c hc
    obtain ⟨c', hc', -, -, hid⟩ := hrecord hc
    rw [hid]
    exact h.ids c' hc'
  · intro g hg
    rcases hfile hg with rfl | ⟨hg, -⟩
    · exact hnamed
    · exact h.named g hg
  · intro c hc hopen
    obtain ⟨hc, -, hid⟩ := (unresolved_resolvesTo hr).mp ⟨hc, hopen⟩
    obtain ⟨g, hg, hgkey, hgid, hhash⟩ := h.row c hc hopen
    have hother := key_ne_of_unresolved h hr.resolves hc hopen hid
    rw [hr.files]
    refine ⟨g, Table.mem_set_iff.mpr (Or.inr ⟨hg, fun heq => hother ?_⟩), hgkey, hgid, hhash⟩
    exact heq.symm.trans hgkey
  · rw [hr.ops, hr.conflicts]
    intro op hop id hid
    obtain ⟨c, hc, hcid⟩ := h.logged op hop id hid
    by_cases hsame : c.conflictId = r.conflict.conflictId
    · exact ⟨_, Table.mem_set_iff.mpr (Or.inl rfl), hsame.symm.trans hcid⟩
    · exact ⟨c, Table.mem_set_iff.mpr (Or.inr ⟨hc, hsame⟩), hcid⟩
  · intro c hc hopen
    obtain ⟨hc, -, -⟩ := (unresolved_resolvesTo hr).mp ⟨hc, hopen⟩
    rw [theirsBlob, hr.ops]
    exact h.theirs c hc hopen

/-- The references of rows after a resolution. -/
theorem mem_live_resolvesTo {now : Time} {input : ResolveInput} {r : Resolution}
    (hr : ResolvesTo now input r s t) (hfile : BlobNamed r.file.contentHash r.file.blobRef)
    (hnamed : BlobNamed (some r.content.hash) r.content.blobRef) (hash refId : String) :
    { hash, refType := .fileLive, refId } ∈ t.blobRefs.rows ↔
      (r.content.blobRef = some hash ∧ refId = r.file.fileId) ∨
      { hash, refType := .fileLive, refId } ∈ s.blobRefs.rows ∧
        ∀ g ∈ some r.file, g.blobRef = some hash → g.blobRef ≠ r.content.blobRef →
          refId ≠ g.fileId := by
  rw [hr.blobRefs, mem_resolutionRefs hnamed.truthy_eq]
  constructor
  · rintro (⟨hash', hblob, heq⟩ | ⟨hmem, -, -, hlive⟩)
    · obtain ⟨rfl, -, rfl⟩ := BlobRef.mk.inj heq
      exact Or.inl ⟨hblob, rfl⟩
    · refine Or.inr ⟨hmem, ?_⟩
      rintro _ ⟨⟩ hblob hmoved rfl
      exact hlive hash hblob (hfile hash hblob).1 hmoved rfl
  · rintro (⟨hblob, rfl⟩ | ⟨hmem, hlive⟩)
    · exact Or.inl ⟨hash, hblob, rfl⟩
    · refine Or.inr ⟨hmem, fun _ _ _ heq => ?_, fun _ _ _ heq => ?_,
        fun hash' hblob _ hmoved heq => ?_⟩
      · exact nomatch (BlobRef.mk.inj heq).2.1
      · exact nomatch (BlobRef.mk.inj heq).2.1
      · obtain ⟨rfl, -, rfl⟩ := BlobRef.mk.inj heq
        exact hlive r.file rfl hblob hmoved rfl

/-- The references of sides after a resolution. -/
theorem mem_side_resolvesTo {now : Time} {input : ResolveInput} {r : Resolution}
    (hr : ResolvesTo now input r s t) (hnamed : BlobNamed (some r.content.hash) r.content.blobRef)
    (hash refId : String) :
    { hash, refType := .conflictSide, refId } ∈ t.blobRefs.rows ↔
      { hash, refType := .conflictSide, refId } ∈ s.blobRefs.rows ∧
        (r.conflict.oursHash = some hash → hash ≠ "" →
          refId ≠ r.conflict.conflictId ++ ":ours") ∧
        (r.conflict.theirsHash = some hash → hash ≠ "" →
          refId ≠ r.conflict.conflictId ++ ":theirs") := by
  rw [hr.blobRefs, mem_resolutionRefs hnamed.truthy_eq]
  constructor
  · rintro (⟨_, _, heq⟩ | ⟨hmem, hours, htheirs, -⟩)
    · exact nomatch (BlobRef.mk.inj heq).2.1
    · refine ⟨hmem, ?_, ?_⟩
      · rintro hhash hne rfl
        exact hours hash hhash hne rfl
      · rintro hhash hne rfl
        exact htheirs hash hhash hne rfl
  · rintro ⟨hmem, hours, htheirs⟩
    refine Or.inr ⟨hmem, fun hash' hhash hne heq => ?_, fun hash' hhash hne heq => ?_,
      fun _ _ _ _ heq => ?_⟩
    · obtain ⟨rfl, -, rfl⟩ := BlobRef.mk.inj heq
      exact hours hhash hne rfl
    · obtain ⟨rfl, -, rfl⟩ := BlobRef.mk.inj heq
      exact htheirs hhash hne rfl
    · exact nomatch (BlobRef.mk.inj heq).2.1

/-- The sides of the conflicts that are left, after a resolution. -/
theorem sideRef_resolvesTo {now : Time} {input : ResolveInput} {r : Resolution}
    (h : SidesFrozen home s) (hr : ResolvesTo now input r s t) {c : ConflictRecord}
    (hc : c ∈ s.conflicts.rows) (hopen : c.status ≠ .resolved)
    (hid : c.conflictId ≠ r.conflict.conflictId) (hash refId : String) :
    SideRef t c hash refId ↔ SideRef s c hash refId := by
  have hours : oursBlob t c = oursBlob s c := by
    rw [oursBlob_set hr.files]
    exact if_neg (key_ne_of_unresolved h hr.resolves hc hopen hid)
  have htheirs : theirsBlob t c = theirsBlob s c := by
    rw [theirsBlob, theirsBlob, hr.ops]
  rw [SideRef, SideRef, hours, htheirs]

/-- **Resolving a conflict** takes the references of its sides back and moves that of the
row. -/
theorem KeptExact.resolve {now : Time} {input : ResolveInput} {r : Resolution}
    (h : KeptExact home s) (hr : ResolvesTo now input r s t)
    (hnamed : BlobNamed (some r.content.hash) r.content.blobRef) : KeptExact home t := by
  have hconflict := hr.resolves.conflict
  have hopen := hr.resolves.pending.2.2
  have hvault : (resolvedFile now input r.conflict r.content r.file).vaultId
      = home (resolvedFile now input r.conflict r.content r.file).fileId :=
    h.frozen.fileVault r.file hr.resolves.file
  have hold : ∀ g ∈ some r.file, g ∈ s.files.rows ∧
      g.key = (resolvedFile now input r.conflict r.content r.file).key := by
    rintro _ ⟨⟩
    exact ⟨hr.resolves.file, rfl⟩
  refine ⟨h.frozen.resolve hr hnamed, live_set h.frozen h.exact hvault hr.files hold ?_
    (mem_live_resolvesTo hr (h.frozen.named r.file hr.resolves.file) hnamed), ?_⟩
  · intro g hg hkey hnot
    exact absurd (congrArg some (Table.eq_of_key_eq hr.resolves.file hg hkey.symm)) hnot
  · intro hash refId
    rw [mem_side_resolvesTo hr hnamed, h.exact.sides]
    constructor
    · rintro ⟨⟨c, hc, hcopen, href⟩, hours, htheirs⟩
      by_cases hid : c.conflictId = r.conflict.conflictId
      · -- the references of the resolved conflict are gone
        rw [Table.eq_of_key_eq hc hconflict hid] at href
        rcases href with ⟨hblob, hrefId⟩ | ⟨hblob, hrefId⟩
        · obtain ⟨hne, hhash⟩ := h.frozen.ours hconflict hopen hash hblob
          exact absurd hrefId (hours hhash hne)
        · obtain ⟨hne, hhash⟩ := h.frozen.theirs r.conflict hconflict hopen hash hblob
          exact absurd hrefId (htheirs hhash hne)
      · obtain ⟨hct, -⟩ := (unresolved_resolvesTo hr).mpr ⟨hc, hcopen, hid⟩
        exact ⟨c, hct, hcopen, (sideRef_resolvesTo h.frozen hr hc hcopen hid _ _).mpr href⟩
    · rintro ⟨c, hc, hcopen, href⟩
      obtain ⟨hc, -, hid⟩ := (unresolved_resolvesTo hr).mp ⟨hc, hcopen⟩
      rw [sideRef_resolvesTo h.frozen hr hc hcopen hid] at href
      obtain ⟨hinjOurs, hinjTheirs, -⟩ := @sideId_inj c.conflictId r.conflict.conflictId
      refine ⟨⟨c, hc, hcopen, href⟩, fun _ _ heq => ?_, fun _ _ heq => ?_⟩
      · rcases href with ⟨-, hrefId⟩ | ⟨-, hrefId⟩
        · exact hid (hinjOurs.mp (hrefId.symm.trans heq))
        · exact sideId_inj.2.2 (heq.symm.trans hrefId)
      · rcases href with ⟨-, hrefId⟩ | ⟨-, hrefId⟩
        · exact sideId_inj.2.2 (hrefId.symm.trans heq)
        · exact hid (hinjTheirs.mp (hrefId.symm.trans heq))

/-! ### Events -/

/-- What is assumed of an op: its file id belongs to one vault, `randomUUID()` gives an id that
no conflict has, and its content is its blob, if it has one. -/
def OwnFileIds (home : String → String) (s : Store) : ServerEvent → Prop
  | .process _ uuid op _ =>
    op.vaultId = home op.fileId ∧ s.getConflict uuid.1 = none ∧
      BlobNamed op.contentHash op.blobRef
  | _ => True

instance (home : String → String) (s : Store) : (e : ServerEvent) → Decidable (OwnFileIds home s e)
  | .process _ uuid op _ =>
    inferInstanceAs (Decidable (op.vaultId = home op.fileId ∧ s.getConflict uuid.1 = none ∧
      BlobNamed op.contentHash op.blobRef))
  | .claim .. | .release .. | .resolve .. | .saveDevice .. | .setRole .. | .saveBlob .. |
    .putContent .. => isTrue trivial

/-- What is assumed of an event: the same of its op, and that the content of the rows is their
blob, if they have one. -/
def NamesBlobs (home : String → String) (P : Platform) (s : Store) (e : ServerEvent) : Prop :=
  OwnFileIds home s e ∧
    ∀ file ∈ (serverStep P s e).files.rows, BlobNamed file.contentHash file.blobRef

instance (home : String → String) (P : Platform) (s : Store) (e : ServerEvent) :
    Decidable (NamesBlobs home P s e) :=
  inferInstanceAs (Decidable (_ ∧ _))

/-- A create over a deleted row that has a blob brings the same blob, if it is accepted. -/
def KeepsTombstoneBlob (P : Platform) (s : Store) : ServerEvent → Prop
  | .process now uuid op userId =>
    (accepted P now uuid op userId s).isSome = true → op.kind = .create →
      ∀ row ∈ opRow op s, row.deleted = true → ∀ blob ∈ row.blobRef, op.blobRef = some blob
  | _ => True

instance (P : Platform) (s : Store) :
    (e : ServerEvent) → Decidable (KeepsTombstoneBlob P s e)
  | .process now uuid op userId =>
    inferInstanceAs (Decidable ((accepted P now uuid op userId s).isSome = true →
      op.kind = .create → ∀ row ∈ opRow op s, row.deleted = true →
        ∀ blob ∈ row.blobRef, op.blobRef = some blob))
  | .claim .. | .release .. | .resolve .. | .saveDevice .. | .setRole .. | .saveBlob .. |
    .putContent .. => isTrue trivial

/-- The tables after an accepted op. -/
theorem tables_of_accepted {now : Time} {uuid : Uuid} {op : FileOp} {userId : Option String}
    {applied : Applied} (ha : accepted P now uuid op userId s = some applied)
    (ht : t = serverStep P s (.process now uuid op userId)) :
    t.files = s.files.set applied.file ∧ t.conflicts = applied.tx.conflicts ∧
      t.blobRefs = (refsAfter op (opRow op s) applied s).blobRefs ∧
      ∃ entry : StoredOp, t.ops = s.ops ++ [entry] ∧ entry.conflictId = applied.conflictId ∧
        entry.payload = op := by
  subst ht
  have hframe := (accepted_spec ha).frame
  rw [serverStep, process_of_accepted ha]
  refine ⟨?_, ?_, ?_, ?_⟩
  · rw [commit_files, hframe.files]
  · rw [commit_conflicts]
  · rw [← blobRefs_of_accepted ha]
    cases opDevice op s <;> rfl
  · rw [commit_ops, hframe.ops]
    exact ⟨_, rfl, rfl, rfl⟩

/-- **An accepted op** that does not take a deleted row away from its blob keeps the references
exact. -/
theorem KeptExact.accepted (h : KeptExact home s) {now : Time} {uuid : Uuid} {op : FileOp}
    {userId : Option String} {applied : Applied}
    (ha : accepted P now uuid op userId s = some applied)
    (ht : t = serverStep P s (.process now uuid op userId))
    (hassumed : NamesBlobs home P s (.process now uuid op userId))
    (hkeeps : KeepsTombstoneBlob P s (.process now uuid op userId)) : KeptExact home t := by
  obtain ⟨hvault, hfresh, hopNamed⟩ := hassumed.1
  obtain ⟨hfiles, hconflicts, hrefs, entry, hops, hentry, hpayload⟩ := tables_of_accepted ha ht
  have hspec := accepted_spec ha
  have hkey := key_of_effect hspec.effect
  have hfileVault : applied.file.vaultId = home applied.file.fileId := by
    rw [(Prod.mk.inj hkey).1, (Prod.mk.inj hkey).2, hvault]
  have hnamed : BlobNamed applied.file.contentHash applied.file.blobRef := by
    refine hassumed.2 applied.file ?_
    rw [← ht, hfiles]
    exact Table.mem_set_iff.mpr (Or.inl rfl)
  have hrowOf : ∀ g ∈ s.files.rows, g.key = applied.file.key → opRow op s = some g :=
    fun g hg hgkey => Table.get?_eq_some_iff.mpr ⟨hg, hgkey.trans hkey⟩
  have hthawed : op.kind.isContent = true → ∀ g ∈ s.files.rows, g.key = applied.file.key →
      truthy g.conflictId = false :=
    fun hcontent g hg hgkey => hspec.unguarded.notFrozen hcontent g (hrowOf g hg hgkey)
  have hclosed : applied.conflictId = none → ∀ e ∈ [entry], e.conflictId = none := by
    intro hnone e he
    rw [List.mem_singleton.mp he, hentry, hnone]
  have hownRow : ∀ row, opRow op s = some row → ∀ g ∈ some row, g ∈ s.files.rows ∧
      g.key = applied.file.key := by
    rintro row hrow _ ⟨⟩
    exact ⟨Table.mem_of_get? hrow, (key_of_opRow hrow).trans hkey.symm⟩
  -- a row that is written from the old one has its reference moved
  have hreplace : op.kind.isContent = true → applied.conflictId = none →
      applied.tx.conflicts = s.conflicts → ∀ row, opRow op s = some row →
      t.blobRefs = (updateBlobRefs s (some row) applied.file).blobRefs → KeptExact home t := by
    intro hcontent hnone hsame row hrow hupdate
    refine h.replace hfileVault hnamed hfiles (hconflicts.trans hsame) hops (hclosed hnone)
      (hthawed hcontent) (hownRow row hrow) ?_ hupdate
    intro g hg hgkey hnot
    exact absurd ((hrowOf g hg hgkey).symm.trans hrow).symm hnot
  have hkeep : ∀ row, opRow op s = some row → applied.file.conflictId = row.conflictId →
      applied.file.contentHash = row.contentHash → applied.file.blobRef = row.blobRef →
      applied.conflictId = none → applied.tx.conflicts = s.conflicts →
      t.blobRefs = s.blobRefs → KeptExact home t := by
    intro row hrow hid hhash hblob hnone hsame hsameRefs
    exact h.keep (Table.mem_of_get? hrow) (hkey.trans (key_of_opRow hrow).symm) hid hhash hblob
      hfiles (hconflicts.trans hsame) hops (hclosed hnone) hsameRefs
  cases hspec.effect with
  | created kind dead canonical unique conflicts =>
    have hcontent : op.kind.isContent = true := by rw [kind]; rfl
    have hnone : (opRow op s).filter (fun file => !file.deleted) = none := by
      rw [Option.filter_eq_none_iff]
      intro row hrow
      simp [dead row hrow]
    rw [refsAfter, kind, hnone] at hrefs
    refine h.replace hfileVault hnamed hfiles (hconflicts.trans conflicts) hops (hclosed rfl)
      (hthawed hcontent) (fun g hg => absurd hg (Option.not_mem_none g)) ?_ hrefs
    intro g hg hgkey _ hash hblob
    have hrow := hrowOf g hg hgkey
    exact hkeeps (by rw [ha]; rfl) kind g hrow (dead g hrow) hash hblob
  | @updated row tx found kind dominates conflicts =>
    rw [refsAfter, found] at hrefs
    rcases kind with ⟨kind, hlive⟩ | kind
    · rw [kind, Option.filter_some, if_pos (by simp [hlive])] at hrefs
      exact hreplace (by rw [kind]; rfl) rfl conflicts row found hrefs
    · rw [kind] at hrefs
      exact hreplace (by rw [kind]; rfl) rfl conflicts row found hrefs
  | @conflicted row tx found kind concurrent conflicts =>
    have hcontent : op.kind.isContent = true := by
      rcases kind with ⟨kind, -⟩ | kind <;> rw [kind] <;> rfl
    have hrowThawed := hspec.unguarded.notFrozen hcontent row found
    have hopened := h.frozen.conflictOf_eq uuid hvault found hrowThawed
    rw [refsAfter, found] at hrefs
    rw [hopened] at hfiles hentry hrefs
    refine h.open hvault hopNamed ⟨found, hrowThawed, hfresh, hfiles, ?_,
      ⟨entry, hops, hentry, hpayload⟩, hrefs⟩
    rw [hconflicts, conflicts, hopened]
  | lostRename found kind clock_eq loses conflicts =>
    rw [refsAfter, kind] at hrefs
    exact hkeep _ found rfl rfl rfl rfl conflicts hrefs
  | renamed found kind clock_eq wins canonical unique conflicts =>
    rw [refsAfter, kind] at hrefs
    exact hkeep _ found rfl rfl rfl rfl conflicts hrefs
  | deleted found kind conflicts =>
    rw [refsAfter, kind] at hrefs
    exact hkeep _ found rfl rfl rfl rfl conflicts hrefs
  | restored found kind canonical unique conflicts =>
    rw [refsAfter, kind, found] at hrefs
    exact hreplace (by rw [kind]; rfl) rfl conflicts _ found hrefs

/-- **Every event** that does not take a deleted row away from its blob keeps the references
exact. -/
theorem keptExact_serverStep (h : KeptExact home s) {e : ServerEvent}
    (hassumed : NamesBlobs home P s e) (hkeeps : KeepsTombstoneBlob P s e) :
    KeptExact home (serverStep P s e) := by
  cases e with
  | process now uuid op userId =>
    cases ha : accepted P now uuid op userId s with
    | none =>
      obtain ⟨hframe, hconflicts⟩ := frame_of_not_accepted ha
      refine h.idle hframe.files hconflicts hframe.ops ?_
      rcases process_of_not_accepted ha with hs | ⟨hs, -⟩
      · rw [serverStep, hs]
      · rw [serverStep, hs, blobRefs_checkedContent]
    | some applied => exact h.accepted ha rfl hassumed hkeeps
  | claim vaultId userId deviceId conflictId =>
    rcases claim_cases vaultId userId deviceId conflictId s with
      ht | ⟨current, written, hget, hpending, rfl, ht⟩
    · rw [serverStep, ht]
      exact h
    · exact h.claim (Table.mem_of_get? hget) hpending (by decide) ht
  | release vaultId userId deviceId conflictId =>
    rcases release_cases vaultId userId deviceId conflictId s with
      ht | ⟨current, written, hget, hpending, rfl, ht⟩
    · rw [serverStep, ht]
      exact h
    · exact h.claim (Table.mem_of_get? hget) hpending (by decide) ht
  | resolve now input =>
    cases hr : resolution P input s with
    | none =>
      rw [serverStep, resolve_of_no_resolution hr]
      exact h
    | some r =>
      obtain ⟨-, -, -, ht⟩ := resolve_of_resolution now hr
      have hto : ResolvesTo now input r s (serverStep P s (.resolve now input)) := by
        refine ⟨resolves_of_resolution hr, ?_, ?_, ?_, ?_⟩
        · rw [serverStep, ht]
        · rw [serverStep, ht]
        · rw [serverStep, ht]
          exact (frame_resolutionRefs input r.conflict r.content r.file s).1.ops
        · rw [serverStep, ht]
      have hnamed := hassumed.2 (resolvedFile now input r.conflict r.content r.file) (by
        rw [hto.files]
        exact Table.mem_set_iff.mpr (Or.inl rfl))
      exact h.resolve hto hnamed
  | saveDevice device => exact h.idle rfl rfl rfl rfl
  | setRole vaultId userId role => exact h.idle rfl rfl rfl rfl
  | saveBlob blob => exact h.idle rfl rfl rfl rfl
  | putContent hash bytes => exact h.idle rfl rfl rfl rfl

/-- **A create that takes a deleted row away from its blob** leaves the reference of the old
one. -/
theorem keepsTombstoneBlob_of_exactRefs (h : KeptExact home s) {e : ServerEvent}
    (hassumed : NamesBlobs home P s e) (hexact : ExactRefs (serverStep P s e)) :
    KeepsTombstoneBlob P s e := by
  cases e with
  | process now uuid op userId =>
    intro hsome kind row hrow hdeleted blob hblob
    obtain ⟨applied, ha⟩ := Option.isSome_iff_exists.mp hsome
    obtain ⟨hvault, -, -⟩ := hassumed.1
    obtain ⟨hfiles, -, hrefs, -⟩ := tables_of_accepted ha rfl
    have hmem : row ∈ s.files.rows := Table.mem_of_get? hrow
    have hkey : row.key = (op.vaultId, op.fileId) := key_of_opRow hrow
    cases (accepted_spec ha).effect with
    | created kind' dead canonical unique conflicts =>
      have hnone : (opRow op s).filter (fun file => !file.deleted) = none := by
        rw [Option.mem_def.mp hrow]
        simp [hdeleted]
      rw [refsAfter, kind, hnone] at hrefs
      -- the old reference is still there, and only the new row can be its row
      have hold : { hash := blob, refType := .fileLive, refId := row.fileId } ∈
          s.blobRefs.rows := (h.exact.live blob row.fileId).mpr ⟨row, hmem, hblob, rfl⟩
      have hnamed := hassumed.2 _ (by
        rw [hfiles]
        exact Table.mem_set_iff.mpr (Or.inl rfl))
      have hstill : { hash := blob, refType := .fileLive, refId := row.fileId } ∈
          (serverStep P s (.process now uuid op userId)).blobRefs.rows := by
        rw [hrefs, mem_updateBlobRefs (fun g hg => absurd hg (Option.not_mem_none g)) hnamed]
        exact Or.inr ⟨hold, fun g hg => absurd hg (Option.not_mem_none g)⟩
      obtain ⟨g, hg, hgblob, hgid⟩ := (hexact.live blob row.fileId).mp hstill
      rw [hfiles] at hg
      rcases Table.mem_set_iff.mp hg with rfl | ⟨hg, hgkey⟩
      · exact hgblob
      · have hsame := h.frozen.key_of_fileId hg hvault (hgid.trans (Prod.mk.inj hkey).2)
        exact absurd hsame hgkey
    | updated found kind' dominates conflicts =>
      rw [Option.mem_def.mp hrow, Option.some.injEq] at found
      rcases kind' with ⟨-, hlive⟩ | kind'
      · rw [found] at hdeleted
        exact absurd hdeleted (by rw [hlive]; decide)
      · exact absurd (kind.symm.trans kind') (by decide)
    | conflicted found kind' concurrent conflicts =>
      rw [Option.mem_def.mp hrow, Option.some.injEq] at found
      rcases kind' with ⟨-, hlive⟩ | kind'
      · rw [found] at hdeleted
        exact absurd hdeleted (by rw [hlive]; decide)
      · exact absurd (kind.symm.trans kind') (by decide)
    | lostRename found kind' | renamed found kind' | deleted found kind' | restored found kind' =>
      exact absurd (kind.symm.trans kind') (by decide)
  | claim | release | resolve | saveDevice | setRole | saveBlob | putContent => trivial

end Steps

/-! ### Runs -/

/-- A store before the first op. -/
structure Unwritten (s : Store) : Prop where
  files : s.files.rows = []
  conflicts : s.conflicts.rows = []
  ops : s.ops = []
  blobRefs : s.blobRefs.rows = []

theorem Unwritten.keptExact {s : Store} (h : Unwritten s) (home : String → String) :
    KeptExact home s := by
  refine ⟨⟨?_, ?_, ?_, ?_, ?_, ?_, ?_⟩, ⟨?_, ?_⟩⟩ <;>
    simp [h.files, h.conflicts, h.ops, h.blobRefs]

/-- **Blob references are exact** in every state of a run exactly if no create that is accepted
over a deleted row takes it away from its blob. -/
theorem exactRefs_iff_keepsTombstoneBlob {home : String → String} {P : Platform} {s : Store}
    (hs : Unwritten s) {es : List ServerEvent}
    (hes : Run.EachStep (serverStep P) (NamesBlobs home P) s es) :
    Run.Throughout (serverStep P) ExactRefs s es ↔
      Run.EachStep (serverStep P) (KeepsTombstoneBlob P) s es :=
  Run.throughout_iff_of_breaks (fun _ h => h.exact)
    (fun _ _ h hassumed hkeeps => keptExact_serverStep h hassumed hkeeps)
    (fun _ _ h hassumed hexact => keepsTombstoneBlob_of_exactRefs h hassumed hexact)
    (hs.keptExact home) hes

/-- The hash of a blob of the sample vault. -/
def sampleBlobHash (digit : Char) : String :=
  String.ofList (hashPrefix.toList ++ List.replicate 64 digit)

/-- A create of an attachment from an uploaded blob. -/
def createFromBlob (opId : String) (deviceSeq : ℕ) (digit : Char) : ServerEvent :=
  .process deviceSeq sampleUuid
    { opId, deviceId := "d1", deviceSeq, fileId := "f", vaultId := "v", kind := .create,
      type := .attachment, newPath := some "a.png", newContentVV := some (sampleVV "d1" deviceSeq),
      contentHash := some (sampleBlobHash digit), blobRef := some (sampleBlobHash digit),
      size := some 10 } (some "u")

/-- An attachment is made, deleted and made again from a blob. -/
def recreatedFrom (digit : Char) : List ServerEvent :=
  [.saveBlob { hash := sampleBlobHash 'a', size := 10, state := .verified },
   .saveBlob { hash := sampleBlobHash 'b', size := 10, state := .verified },
   createFromBlob "o1" 1 'a',
   .process 2 sampleUuid (sampleDelete "o2" "d1" "f" 2) (some "u"),
   createFromBlob "o3" 3 digit]

/-- From the same blob the references stay exact. -/
theorem exactRefs_recreatedFrom_same :
    Run.Throughout (serverStep samplePlatform) ExactRefs sampleStore (recreatedFrom 'a') := by
  have hnames : Run.EachStep (serverStep samplePlatform)
      (NamesBlobs (fun _ => "v") samplePlatform) sampleStore (recreatedFrom 'a') := by
    decide +kernel
  exact (exactRefs_iff_keepsTombstoneBlob ⟨rfl, rfl, rfl, rfl⟩ hnames).mpr (by decide +kernel)

/-- From another blob the reference of the first one is left over. -/
theorem not_exactRefs_recreatedFrom :
    Run.EachStep (serverStep samplePlatform) (NamesBlobs (fun _ => "v") samplePlatform)
      sampleStore (recreatedFrom 'b') ∧
    ¬ Run.Throughout (serverStep samplePlatform) ExactRefs sampleStore (recreatedFrom 'b') := by
  refine ⟨by decide +kernel, fun h => ?_⟩
  have hfinal : { hash := sampleBlobHash 'a', refType := .fileLive, refId := "f" } ∈
        (Run.final (serverStep samplePlatform) sampleStore (recreatedFrom 'b')).blobRefs.rows ∧
      ∀ file ∈ (Run.final (serverStep samplePlatform) sampleStore (recreatedFrom 'b')).files.rows,
        file.blobRef ≠ some (sampleBlobHash 'a') := by
    decide +kernel
  obtain ⟨hleft, hnone⟩ := hfinal
  obtain ⟨file, hfile, hblob, -⟩ := (h.final.live _ _).mp hleft
  exact hnone file hfile hblob

end ObsidianSync
