import ObsidianSync.Socket.System

/-!
# The hashes a vault holds

The server keeps content by hash, for all vaults together; a vault holds the hashes its
rows, conflicts and ops name.  Here is what each call adds to them: an op the hashes it
names, a resolution its own hash, and nothing else anything.

## Main definitions

* `FileOp.Names` — the hashes an op names.
* `NewHashes` — what a step adds to the hashes of one vault.

## Main results

* `holdsContent_process`, `holdsContent_resolve` — the hashes a call adds.
* `content_process`, `content_resolve` — a call keeps text under its own hash only.
-/

namespace ObsidianSync

/-! ### Hashes a store names -/

/-- Whether an op names the hash. -/
def FileOp.Names (op : FileOp) (hash : String) : Prop :=
  op.contentHash = some hash ∨ op.blobRef = some hash

instance (op : FileOp) (hash : String) : Decidable (op.Names hash) :=
  inferInstanceAs (Decidable (_ ∨ _))

theorem holdsContent_iff {s : Store} {vaultId hash : String} :
    s.holdsContent vaultId hash = true ↔
      (∃ file ∈ s.files.rows, file.vaultId = vaultId ∧ file.contentHash = some hash) ∨
      (∃ conflict ∈ s.conflicts.rows, conflict.vaultId = vaultId ∧ some hash ∈ conflict.hashes) ∨
      (∃ op ∈ s.ops, op.vaultId = vaultId ∧ op.payload.Names hash) := by
  simp [Store.holdsContent, FileOp.Names, or_assoc]

/-- The hashes the vaults of `t` name are those of `s`, and the new ones of one vault. -/
structure NewHashes (s t : Store) (vaultId : String) (New : String → Prop) : Prop where
  files : ∀ file ∈ t.files.rows, ∀ hash, file.contentHash = some hash →
    s.holdsContent file.vaultId hash = true ∨ file.vaultId = vaultId ∧ New hash
  conflicts : ∀ conflict ∈ t.conflicts.rows, ∀ hash, some hash ∈ conflict.hashes →
    s.holdsContent conflict.vaultId hash = true ∨ conflict.vaultId = vaultId ∧ New hash
  ops : ∀ op ∈ t.ops, ∀ hash, op.payload.Names hash →
    s.holdsContent op.vaultId hash = true ∨ op.vaultId = vaultId ∧ New hash

section

variable {s t : Store} {vaultId roomVault fileId hash : String} {New : String → Prop}

theorem NewHashes.holdsContent {v : String} (h : NewHashes s t vaultId New)
    (hheld : t.holdsContent v hash = true) :
    s.holdsContent v hash = true ∨ v = vaultId ∧ New hash := by
  rcases holdsContent_iff.mp hheld with ⟨file, hmem, rfl, hhash⟩ | ⟨c, hmem, rfl, hhash⟩ |
    ⟨op, hmem, rfl, hhash⟩
  · exact h.files file hmem hash hhash
  · exact h.conflicts c hmem hash hhash
  · exact h.ops op hmem hash hhash

theorem holdsContent_of_file {file : StoredFile} (h : file ∈ s.files.rows)
    (hhash : file.contentHash = some hash) : s.holdsContent file.vaultId hash = true :=
  holdsContent_iff.mpr (Or.inl ⟨file, h, rfl, hhash⟩)

theorem holdsContent_of_conflict {c : ConflictRecord} (h : c ∈ s.conflicts.rows)
    (hhash : some hash ∈ c.hashes) : s.holdsContent c.vaultId hash = true :=
  holdsContent_iff.mpr (Or.inr (Or.inl ⟨c, h, rfl, hhash⟩))

theorem holdsContent_of_op {op : StoredOp} (h : op ∈ s.ops) (hhash : op.payload.Names hash) :
    s.holdsContent op.vaultId hash = true :=
  holdsContent_iff.mpr (Or.inr (Or.inr ⟨op, h, rfl, hhash⟩))

/-- What a vault holds depends on the rows, the conflicts and the log only. -/
theorem holdsContent_congr (hfiles : t.files = s.files) (hconflicts : t.conflicts = s.conflicts)
    (hops : t.ops = s.ops) (v hash : String) : t.holdsContent v hash = s.holdsContent v hash := by
  rw [Store.holdsContent, Store.holdsContent, hfiles, hconflicts, hops]

/-- One row is written, with a hash its vault holds or a new one. -/
theorem NewHashes.of_row {file : StoredFile} (hfiles : t.files = s.files.set file)
    (hconflicts : t.conflicts = s.conflicts) (hops : t.ops = s.ops)
    (hfile : ∀ hash, file.contentHash = some hash →
      s.holdsContent file.vaultId hash = true ∨ file.vaultId = vaultId ∧ New hash) :
    NewHashes s t vaultId New where
  files row hrow hash hhash := by
    rw [hfiles, Table.mem_set_iff] at hrow
    rcases hrow with rfl | ⟨hrow, -⟩
    · exact hfile hash hhash
    · exact Or.inl (holdsContent_of_file hrow hhash)
  conflicts c hc hash hhash := Or.inl (holdsContent_of_conflict (hconflicts ▸ hc) hhash)
  ops op hop hash hhash := Or.inl (holdsContent_of_op (hops ▸ hop) hhash)

/-! ### Where the hashes of a vault come from -/

/-- The lease of a row is no content. -/
theorem holdsContent_setActiveUntil {activeUntil : Option Time} {v : String}
    (h : (setActiveUntil roomVault fileId activeUntil s).holdsContent v hash = true) :
    s.holdsContent v hash = true := by
  unfold setActiveUntil at h
  split at h
  · exact h
  next row hrow =>
  have hnew : NewHashes s (s.saveFile { row with activeUntil }) v fun _ => False := by
    refine .of_row rfl rfl rfl fun hash hhash => Or.inl ?_
    have hheld : s.holdsContent row.vaultId hash = true :=
      holdsContent_of_file (Table.mem_of_get? hrow) hhash
    exact hheld
  simpa using hnew.holdsContent h

theorem holdsContent_clearActiveUntil {v : String}
    (h : (clearActiveUntil roomVault fileId s).holdsContent v hash = true) :
    s.holdsContent v hash = true := by
  unfold clearActiveUntil at h
  split at h
  · exact h
  next row hrow =>
  split at h
  · have hnew : NewHashes s (s.saveFile { row with activeUntil := none }) v fun _ => False := by
      refine .of_row rfl rfl rfl fun hash hhash => Or.inl ?_
      have hheld : s.holdsContent row.vaultId hash = true :=
        holdsContent_of_file (Table.mem_of_get? hrow) hhash
      exact hheld
    simpa using hnew.holdsContent h
  · exact h

section

variable {P : Platform} {now : Time} {uuid : Uuid} {op : FileOp} {userId : Option String}
  {applied : Applied}

/-- The record of a conflict names the hash of the row and the hashes of the op. -/
theorem hashes_conflictOf {row : StoredFile} (hrow : opRow op s = some row) {c : ConflictRecord}
    (hc : c ∈ (conflictOf uuid op row s).2.conflicts.rows) (hhash : some hash ∈ c.hashes) :
    s.holdsContent c.vaultId hash = true ∨ c.vaultId = op.vaultId ∧ op.Names hash := by
  unfold conflictOf Store.createConflict at hc
  dsimp only at hc
  split at hc
  · exact Or.inl (holdsContent_of_conflict hc hhash)
  rw [Table.mem_set_iff] at hc
  rcases hc with rfl | ⟨hc, -⟩
  · have hvault : row.vaultId = op.vaultId := (Store.key_of_getFile hrow).1
    simp only [ConflictRecord.hashes, List.mem_cons, List.not_mem_nil, or_false] at hhash
    rcases hhash with hbase | hours | htheirs | hresolved
    · exact Or.inr ⟨rfl, Or.inl hbase.symm⟩
    · refine Or.inl ?_
      have hheld := holdsContent_of_file (Table.mem_of_get? hrow) hours.symm
      rwa [hvault] at hheld
    · refine Or.inr ⟨rfl, ?_⟩
      cases hop : op.contentHash with
      | none => exact Or.inr (by simpa [hop] using htheirs.symm)
      | some declared => exact Or.inl (by simpa [hop] using htheirs.symm)
    · simp at hresolved
  · exact Or.inl (holdsContent_of_conflict hc hhash)

/-- The row of an accepted op has the hash it had or one the op names. -/
theorem hash_of_effect (h : Effect P now uuid op s applied)
    (hhash : applied.file.contentHash = some hash) :
    s.holdsContent op.vaultId hash = true ∨ op.Names hash := by
  have hheld : ∀ {row}, opRow op s = some row → row.contentHash = some hash →
      s.holdsContent op.vaultId hash = true := by
    intro row hrow hrowHash
    have hheld := holdsContent_of_file (Table.mem_of_get? hrow) hrowHash
    rwa [(Store.key_of_getFile hrow).1] at hheld
  -- a declared hash, a blob in its place, or the hash of the row
  have hor : ∀ {row}, opRow op s = some row →
      (op.contentHash.or op.blobRef).or row.contentHash = some hash →
      s.holdsContent op.vaultId hash = true ∨ op.Names hash := by
    intro row hrow hsome
    cases hdeclared : op.contentHash with
    | some declared => exact Or.inr (Or.inl (by simpa [hdeclared] using hsome))
    | none =>
      cases hblob : op.blobRef with
      | some blob => exact Or.inr (Or.inr (by simpa [hdeclared, hblob] using hsome))
      | none => exact Or.inl (hheld hrow (by simpa [hdeclared, hblob] using hsome))
  cases h with
  | created =>
    have hsome : op.contentHash.or op.blobRef = some hash := hhash
    cases hdeclared : op.contentHash with
    | some declared => exact Or.inr (Or.inl (by simpa [hdeclared] using hsome))
    | none => exact Or.inr (Or.inr (by simpa [hdeclared] using hsome))
  | updated row => exact hor row hhash
  | conflicted row | lostRename row | renamed row | deleted row => exact Or.inl (hheld row hhash)
  | restored row =>
    have hsome : op.contentHash.or _ = some hash := hhash
    cases hdeclared : op.contentHash with
    | some declared => exact Or.inr (Or.inl (by simpa [hdeclared] using hsome))
    | none => exact Or.inl (hheld row (by simpa [hdeclared] using hsome))

/-- **An op adds the hashes it names to its vault**, if it goes through, and no others. -/
theorem holdsContent_process {v : String}
    (h : (process P now uuid op userId s).2.holdsContent v hash = true) :
    s.holdsContent v hash = true ∨
      v = op.vaultId ∧ (accepted P now uuid op userId s).isSome = true ∧ op.Names hash := by
  cases ha : accepted P now uuid op userId s with
  | none =>
    obtain ⟨hframe, hconflicts⟩ := frame_of_not_accepted ha
    rw [holdsContent_congr hframe.files hconflicts hframe.ops] at h
    exact Or.inl h
  | some applied =>
    have hspec := accepted_spec ha
    rw [process_of_accepted ha] at h
    have hnew : NewHashes s (commit now op (opDevice op s) applied).2 op.vaultId op.Names := by
      constructor
      · intro file hfile hash hhash
        rw [mem_files_commit (opDevice op s) hspec.effect hspec.frame] at hfile
        rcases hfile with rfl | ⟨hfile, -⟩
        · have hvault : applied.file.vaultId = op.vaultId :=
            congrArg Prod.fst (key_of_effect hspec.effect)
          rw [hvault]
          exact (hash_of_effect hspec.effect hhash).imp_right fun hnames => ⟨rfl, hnames⟩
        · exact Or.inl (holdsContent_of_file hfile hhash)
      · intro c hc hash hhash
        rw [commit_conflicts] at hc
        cases hspec.effect with
        | conflicted row kind concurrent conflicts =>
          rw [conflicts] at hc
          exact hashes_conflictOf row hc hhash
        | created _ _ _ _ conflicts | updated _ _ _ conflicts | lostRename _ _ _ _ conflicts
        | renamed _ _ _ _ _ _ conflicts | deleted _ _ conflicts
        | restored _ _ _ _ conflicts =>
          rw [conflicts] at hc
          exact Or.inl (holdsContent_of_conflict hc hhash)
      · intro logged hlogged hash hhash
        rw [commit_ops, hspec.frame.ops, List.mem_append, List.mem_singleton] at hlogged
        rcases hlogged with hlogged | rfl
        · exact Or.inl (holdsContent_of_op hlogged hhash)
        · exact Or.inr ⟨rfl, hhash⟩
    exact (hnew.holdsContent h).imp_right fun hnames => ⟨hnames.1, rfl, hnames.2⟩

/-- What an op keeps is its text, under the hash of the text. -/
theorem content_process {entry : String × Bytes}
    (h : entry ∈ (process P now uuid op userId s).2.content.rows) :
    entry ∈ s.content.rows ∨
      ∃ text ∈ op.inlineText, entry = (contentHashText P text, encodeText text) := by
  -- in either case the text was checked against the declared hash
  have hchecked : (op.kind.isContent = true → truthy op.contentHash = true →
      ∀ text, op.inlineText = some text → contentHashText P text = op.contentHash.getD "") →
      entry ∈ (checkedContent op s).content.rows →
      entry ∈ s.content.rows ∨
        ∃ text ∈ op.inlineText, entry = (contentHashText P text, encodeText text) := by
    intro hhash hmem
    unfold checkedContent at hmem
    split at hmem
    · exact Or.inl hmem
    next text htext =>
    split at hmem
    · next hcontent =>
      rw [Bool.and_eq_true] at hcontent
      rw [Store.putContent, Table.mem_set_iff] at hmem
      rcases hmem with rfl | ⟨hmem, -⟩
      · exact Or.inr ⟨text, htext, by rw [hhash hcontent.1 hcontent.2 text htext]⟩
      · exact Or.inl hmem
    · exact Or.inl hmem
  cases ha : accepted P now uuid op userId s with
  | none =>
    rcases process_of_not_accepted ha with hs | ⟨hs, -, -, hhash⟩
    · rw [hs] at h
      exact Or.inl h
    · rw [hs] at h
      exact hchecked (fun _ _ => hhash) h
  | some applied =>
    have hspec := accepted_spec ha
    rw [process_of_accepted ha, commit_content, hspec.content] at h
    exact hchecked hspec.payload.inlineText h

end

/-! ### Conflicts -/

/-- A record with the vault and the hashes of a stored one is written. -/
theorem holdsContent_setConflict {key v : String} {current written : ConflictRecord}
    (hget : s.conflicts.get? key = some current) (hvault : written.vaultId = current.vaultId)
    (hhashes : written.hashes = current.hashes)
    (h : ({ s with conflicts := s.conflicts.set written } : Store).holdsContent v hash = true) :
    s.holdsContent v hash = true := by
  have hnew : NewHashes s { s with conflicts := s.conflicts.set written } v fun _ => False := by
    refine ⟨fun _ hfile _ hhash => Or.inl (holdsContent_of_file hfile hhash), ?_,
      fun _ hop _ hhash => Or.inl (holdsContent_of_op hop hhash)⟩
    intro c hc hash hhash
    refine Or.inl ?_
    rcases Table.mem_set_iff.mp hc with rfl | ⟨hc, -⟩
    · rw [hvault]
      exact holdsContent_of_conflict (Table.mem_of_get? hget) (hhashes ▸ hhash)
    · exact holdsContent_of_conflict hc hhash
  simpa using hnew.holdsContent h

theorem holdsContent_claim {v userId deviceId conflictId : String}
    (h : (claim vaultId userId deviceId conflictId s).2.holdsContent v hash = true) :
    s.holdsContent v hash = true := by
  rcases claim_cases vaultId userId deviceId conflictId s with hs | ⟨c, written, hget, -, heq, hs⟩
  · rwa [hs] at h
  · rw [hs] at h
    exact holdsContent_setConflict hget (by rw [heq]) (by rw [heq]; rfl) h

theorem holdsContent_release {v userId deviceId conflictId : String}
    (h : (release vaultId userId deviceId conflictId s).2.holdsContent v hash = true) :
    s.holdsContent v hash = true := by
  rcases release_cases vaultId userId deviceId conflictId s with hs | ⟨c, written, hget, -, heq, hs⟩
  · rwa [hs] at h
  · rw [hs] at h
    exact holdsContent_setConflict hget (by rw [heq]) (by rw [heq]; rfl) h

section

variable {P : Platform} {now : Time} {input : ResolveInput}

/-- The hash of a resolution is that of its text, or the vault may name it. -/
theorem hash_of_checkResolvedContent {conflict : ConflictRecord} {content : ResolvedContent}
    (h : checkResolvedContent P input conflict s = .ok content) :
    (∃ text ∈ input.inlineText, content.hash = contentHashText P text) ∨
      input.inlineText = none ∧ input.resolvedHash = some content.hash ∧
        (s.holdsContent conflict.vaultId content.hash = true ∨
          input.allowPendingResolvedHash = true) := by
  have hheld : ∀ {hash : String}, s.hasContentForVault conflict.vaultId hash = true →
      s.holdsContent conflict.vaultId hash = true := by
    intro hash hheld
    -- what the in-memory store counts the tables count as well
    simp only [Store.hasContentForVault, Bool.or_eq_true, List.any_eq_true, decide_eq_true_eq]
      at hheld
    rcases hheld with (⟨file, hmem, hvault, hfile⟩ | ⟨c, hmem, hvault, hc⟩) | ⟨op, hmem, hop⟩
    · exact hvault ▸ holdsContent_of_file hmem hfile
    · refine hvault ▸ holdsContent_of_conflict hmem ?_
      simp only [ConflictRecord.hashes, List.mem_cons, List.not_mem_nil, or_false] at hc ⊢
      exact hc.imp_right fun h => h.imp_right Or.inl
    · rw [Store.opsByVault, List.mem_insertionSort, List.mem_filter, decide_eq_true_eq] at hmem
      exact hmem.2 ▸ holdsContent_of_op hmem.1 hop
  cases chosen_of_checkResolvedContent h with
  | text inline => exact Or.inl ⟨_, inline, rfl⟩
  | blob inline resolved ne allowed => exact Or.inr ⟨inline, resolved, allowed.imp_left hheld⟩
  | kept inline resolved ne allowed => exact Or.inr ⟨inline, resolved, allowed.imp_left hheld⟩

/-- **A resolution adds its own hash to its vault**: that of its text, or one the vault may
name. -/
theorem holdsContent_resolve {v : String}
    (h : (resolve P now input s).2.holdsContent v hash = true) :
    s.holdsContent v hash = true ∨ v = input.vaultId ∧
      ((∃ text ∈ input.inlineText, hash = contentHashText P text) ∨
        input.resolvedHash = some hash ∧ input.allowPendingResolvedHash = true) := by
  cases hr : resolution P input s with
  | none =>
    rw [resolve_of_no_resolution hr] at h
    exact Or.inl h
  | some r =>
    obtain ⟨hget, -, hfile, hs⟩ := resolve_of_resolution now hr
    obtain ⟨hframe, hconflicts⟩ := frame_resolutionRefs input r.conflict r.content r.file s
    obtain ⟨hvault, hcontent⟩ := checked_of_resolution hr
    -- the new hash, where the vault did not hold it already
    have hnew : ∀ hash, some hash = some r.content.hash →
        s.holdsContent r.conflict.vaultId hash = true ∨ r.conflict.vaultId = input.vaultId ∧
          ((∃ text ∈ input.inlineText, hash = contentHashText P text) ∨
            input.resolvedHash = some hash ∧ input.allowPendingResolvedHash = true) := by
      rintro hash hhash
      rw [Option.some.injEq] at hhash
      subst hhash
      rcases hash_of_checkResolvedContent hcontent with htext | ⟨-, hresolved, hheld | hallowed⟩
      · exact Or.inr ⟨hvault, Or.inl htext⟩
      · exact Or.inl hheld
      · exact Or.inr ⟨hvault, Or.inr ⟨hresolved, hallowed⟩⟩
    have hhashes : NewHashes s (resolve P now input s).2 input.vaultId fun hash =>
        (∃ text ∈ input.inlineText, hash = contentHashText P text) ∨
          input.resolvedHash = some hash ∧ input.allowPendingResolvedHash = true := by
      rw [hs]
      constructor
      · intro file hmem hash hhash
        rcases Table.mem_set_iff.mp hmem with rfl | ⟨hmem, -⟩
        · have hrow : r.file.vaultId = r.conflict.vaultId := (Store.key_of_getFile hfile).1
          have hsome : some hash = some r.content.hash := hhash.symm
          have hwritten := hnew hash hsome
          rw [← hrow] at hwritten
          exact hwritten
        · exact Or.inl (holdsContent_of_file hmem hhash)
      · intro c hmem hash hhash
        rcases Table.mem_set_iff.mp hmem with rfl | ⟨hmem, -⟩
        · simp only [ConflictRecord.hashes, resolvedConflict, List.mem_cons, List.not_mem_nil,
            or_false] at hhash
          have hkept (h : some hash ∈ r.conflict.hashes) :
              s.holdsContent r.conflict.vaultId hash = true :=
            holdsContent_of_conflict (Table.mem_of_get? hget) h
          rcases hhash with hbase | hours | htheirs | hresolved
          · exact Or.inl (hkept (by simp [ConflictRecord.hashes, hbase]))
          · exact Or.inl (hkept (by simp [ConflictRecord.hashes, hours]))
          · exact Or.inl (hkept (by simp [ConflictRecord.hashes, htheirs]))
          · exact hnew hash hresolved
        · exact Or.inl (holdsContent_of_conflict hmem hhash)
      · intro op hmem hash hhash
        exact Or.inl (holdsContent_of_op (hframe.ops ▸ hmem) hhash)
    exact hhashes.holdsContent h

/-- What a resolution keeps is its text, under the hash of the text. -/
theorem content_resolve {entry : String × Bytes}
    (h : entry ∈ (resolve P now input s).2.content.rows) :
    entry ∈ s.content.rows ∨
      ∃ text ∈ input.inlineText, entry = (contentHashText P text, encodeText text) := by
  cases hr : resolution P input s with
  | none =>
    rw [resolve_of_no_resolution hr] at h
    exact Or.inl h
  | some r =>
    obtain ⟨hget, -, -, hs⟩ := resolve_of_resolution now hr
    have hcontent := (checked_of_resolution hr).2
    rw [hs] at h
    have htext : (resolutionRefs input r.conflict r.content r.file s).content
        = (resolutionText input r.content s).content :=
      (refsOnly_resolutionRefs input r.conflict r.content r.file s).content
    have hmem : entry ∈ (resolutionText input r.content s).content.rows := htext ▸ h
    unfold resolutionText at hmem
    split at hmem
    · next text hinline =>
      rw [Store.putContent, Table.mem_set_iff] at hmem
      rcases hmem with rfl | ⟨hmem, -⟩
      · refine Or.inr ⟨text, hinline, ?_⟩
        rcases hash_of_checkResolvedContent hcontent with ⟨text', htext', hhash⟩ | ⟨hnone, -⟩
        · rw [hinline, Option.mem_some_iff] at htext'
          rw [hhash, htext']
        · simp [hnone] at hinline
      · exact Or.inl hmem
    · exact Or.inl hmem

end

end

/-! ### Rooms -/

section

variable {D : Type} [SemilatticeSup D] [OrderBot D]

/-- The text a store call writes to the note of its room. -/
def StoreCall.text : StoreCall D → Option String
  | .process _ _ op => op.inlineText
  | _ => none

/-- The texts of store calls. -/
def callTexts (calls : StoreCalls D) : List String := calls.filterMap fun call => call.1.text

/-- A call that processes an op writes a text to the note of the room. -/
def StoreCall.WritesOwn (cfg : RoomConfig D) : StoreCall D → Prop
  | .process _ _ op => op.blobRef = none ∧ ∃ text, WritesText cfg op text
  | _ => True

/-- A store call of a room reads content only to seed the room from its note, and writes
only to its note. -/
def OwnCall (cfg : RoomConfig D) (data : Store) : StoreCall D → Prop
  | .getContent hash => data.holdsContent cfg.vaultId hash = true
  | call => call.WritesOwn cfg

theorem OwnCall.writesOwn {cfg : RoomConfig D} {data : Store} {call : StoreCall D}
    (h : OwnCall cfg data call) : call.WritesOwn cfg := by
  cases call with
  | getContent => trivial
  | process | getRole | saveRow | clearRow | saveRoom | appendUpdate | saveSnapshot
  | deleteUpdatesThrough => exact h

variable {cfg : RoomConfig D} {r : Room D}

theorem ownCall_saveRuntimeCalls {data : Store} (runtime : RuntimeRoom D) :
    ∀ call ∈ saveRuntimeCalls runtime, OwnCall cfg data call.1 := by
  intro call hcall
  simp only [saveRuntimeCalls, List.mem_cons, List.not_mem_nil, or_false] at hcall
  rcases hcall with rfl | rfl <;> trivial

theorem ownCall_activateCalls {data : Store} (now : Time) (clientID : ℕ) {file : StoredFile}
    (deviceId : String) (hheld : ∀ hash, file.contentHash = some hash →
      data.holdsContent cfg.vaultId hash = true) :
    ∀ call ∈ r.activateCalls cfg now clientID file deviceId, OwnCall cfg data call.1 := by
  intro call hcall
  simp only [Room.activateCalls, List.mem_append, List.mem_singleton] at hcall
  rcases hcall with (hread | hsave) | rfl
  · split at hread
    · next hseed =>
      rw [List.mem_singleton] at hread
      subst hread
      rw [Bool.and_eq_true] at hseed
      cases hhash : file.contentHash with
      | none => simp [hhash] at hseed
      | some hash =>
        show data.holdsContent cfg.vaultId ((some hash).getD "") = true
        exact hheld hash hhash
    · simp at hread
  · exact ownCall_saveRuntimeCalls _ call hsave
  · trivial

theorem ownCall_joinCalls {data : Store} (now : Time) (deviceId : String) :
    ∀ call ∈ r.joinCalls cfg now deviceId, OwnCall cfg data call.1 := by
  intro call hcall
  simp only [Room.joinCalls, List.mem_append, List.mem_singleton] at hcall
  rcases hcall with hsave | rfl
  · exact ownCall_saveRuntimeCalls _ call hsave
  · trivial

theorem ownCall_promoteCalls (now : Time) (clientID : ℕ) (deviceId userId : String) :
    ∀ call ∈ r.promoteCalls cfg now clientID deviceId userId, OwnCall cfg r.data call.1 := by
  intro call hcall
  unfold Room.promoteCalls at hcall
  split at hcall
  · simp at hcall
  split at hcall
  · simp at hcall
  next file hfile =>
  split at hcall
  · simp at hcall
  have hrow : r.data.getFile cfg.vaultId cfg.fileId = some file := by
    unfold requiredLiveFile at hfile
    split at hfile
    · simp [fail] at hfile
    · next row hrow =>
      split at hfile
      · simp [fail] at hfile
      · rw [hrow, Except.ok.inj hfile]
  have hheld : ∀ hash, file.contentHash = some hash →
      r.data.holdsContent cfg.vaultId hash = true := by
    intro hash hhash
    have hheld := holdsContent_of_file (Table.mem_of_get? hrow) hhash
    rwa [(Store.key_of_getFile hrow).1] at hheld
  split at hcall
  · rcases List.mem_append.mp hcall with hactivate | hjoin
    · exact ownCall_activateCalls now clientID deviceId hheld call hactivate
    · exact ownCall_joinCalls now deviceId call hjoin
  · exact ownCall_joinCalls now deviceId call hcall

theorem ownCall_handleUpdateCalls {data : Store} (now : Time) (deviceId userId : String)
    (roomEpoch : ℕ) (update : D) :
    ∀ call ∈ r.handleUpdateCalls cfg now deviceId userId roomEpoch update,
      OwnCall cfg data call.1 := by
  intro call hcall
  unfold Room.handleUpdateCalls at hcall
  split at hcall
  · simp at hcall
  split at hcall
  · simp at hcall
  split at hcall
  · simp at hcall
  split at hcall
  · simp at hcall
  split at hcall
  · simp at hcall
  dsimp only at hcall
  split at hcall
  · simp at hcall
  simp only [Room.acceptUpdateCalls, List.mem_cons, List.mem_append] at hcall
  rcases hcall with (rfl | hsnapshot) | hsave
  · trivial
  · split at hsnapshot
    · obtain rfl := List.mem_singleton.mp hsnapshot
      trivial
    · simp at hsnapshot
  · exact ownCall_saveRuntimeCalls _ call hsave

theorem ownCall_demoteLockedCalls {data : Store} (now : Time) (uuid : Uuid) :
    ∀ call ∈ r.demoteLockedCalls cfg now uuid, OwnCall cfg data call.1 := by
  intro call hcall
  unfold Room.demoteLockedCalls at hcall
  split at hcall
  · simp at hcall
  rcases List.mem_cons.mp hcall with rfl | hrest
  · exact ⟨rfl, _, writesText_flushOp r⟩
  split at hrest
  · simp only [List.cons_append, List.mem_cons, List.mem_append, List.not_mem_nil, or_false]
      at hrest
    rcases hrest with rfl | hsave | rfl
    · trivial
    · exact ownCall_saveRuntimeCalls _ call hsave
    · trivial
  · simp at hrest

theorem ownCall_restoreHistoryVersionCalls {data : Store} (now : Time) (uuid : Uuid)
    (clientID : ℕ) (deviceId userId : String) (versionId : ℕ) (requestId : String) :
    ∀ call ∈ r.restoreHistoryVersionCalls cfg now uuid clientID deviceId userId versionId requestId,
      OwnCall cfg data call.1 := by
  intro call hcall
  unfold Room.restoreHistoryVersionCalls at hcall
  split at hcall
  · simp at hcall
  split at hcall
  · simp at hcall
  split at hcall
  · simp at hcall
  rcases List.mem_cons.mp hcall with rfl | hrest
  · exact ⟨rfl, _, writesText_restoreOp _ _⟩
  split at hrest
  · simp only [Room.replaceTextCalls, List.mem_cons] at hrest
    rcases hrest with rfl | rfl | hsave
    · trivial
    · trivial
    · exact ownCall_saveRuntimeCalls _ call hsave
  · simp at hrest

/-- **A room reads the text of its own note and writes it**, and has no other way to
content. -/
theorem ownCall_storeCalls (cfg : RoomConfig D) (r : Room D) (event : RoomEvent D) :
    ∀ call ∈ storeCalls cfg r event, OwnCall cfg r.data call.1 := by
  intro call hcall
  -- the calls that save a room carry no content, the flush and the restore its text
  cases event with
  | promote now clientID deviceId userId connection =>
    exact ownCall_promoteCalls now clientID deviceId userId call hcall
  | handleUpdate now deviceId userId roomEpoch updateId update =>
    exact ownCall_handleUpdateCalls now deviceId userId roomEpoch update call hcall
  | heartbeat now deviceId roomEpoch =>
    simp only [storeCalls, Room.heartbeatCalls] at hcall
    split at hcall
    · simp at hcall
    split at hcall
    · simp at hcall
    · exact ownCall_saveRuntimeCalls _ call hcall
  | demote now uuid deviceId roomEpoch reason =>
    simp only [storeCalls] at hcall
    split at hcall
    · exact ownCall_demoteLockedCalls now uuid call hcall
    · simp at hcall
  | closingTimer now uuid =>
    simp only [storeCalls] at hcall
    split at hcall
    · exact ownCall_demoteLockedCalls now uuid call hcall
    · simp at hcall
  | sweepExpired now uuid =>
    simp only [storeCalls] at hcall
    split at hcall
    · exact ownCall_demoteLockedCalls now uuid call hcall
    · simp at hcall
  | closeAll now uuid reason => exact ownCall_demoteLockedCalls now uuid call hcall
  | closeDeleted =>
    simp only [storeCalls, Room.closeDeletedCalls] at hcall
    split at hcall
    · simp only [List.mem_append, List.mem_singleton] at hcall
      rcases hcall with hsave | rfl
      · exact ownCall_saveRuntimeCalls _ call hsave
      · trivial
    · simp at hcall
  | compact now throughSeq =>
    simp only [storeCalls, Room.compactCalls, List.mem_cons] at hcall
    rcases hcall with rfl | rfl | hsave
    · trivial
    · trivial
    · exact ownCall_saveRuntimeCalls _ call hsave
  | restoreHistoryVersion now uuid clientID deviceId userId versionId requestId =>
    exact ownCall_restoreHistoryVersionCalls now uuid clientID deviceId userId versionId requestId
      call hcall
  | layer1 | handleSync | leave | disconnect | restart => simp [storeCalls] at hcall

/-- A store call adds the hash of its text to the vault of its room. -/
theorem holdsContent_runData {data : Store} {call : StoreCall D} {v hash : String}
    (hcall : call.WritesOwn cfg)
    (h : (call.runData cfg data).holdsContent v hash = true) :
    data.holdsContent v hash = true ∨ v = cfg.vaultId ∧
      ∃ text ∈ call.text, hash = contentHashText cfg.platform text := by
  cases call with
  | process now uuid op =>
    obtain ⟨hblob, text, hop⟩ := hcall
    rcases holdsContent_process h with hheld | ⟨rfl, -, hnames⟩
    · exact Or.inl hheld
    · refine Or.inr ⟨hop.vaultId, text, hop.inlineText, ?_⟩
      rcases hnames with hnames | hnames
      · rw [hop.contentHash, Option.some.injEq] at hnames
        exact hnames.symm
      · simp [hblob] at hnames
  | saveRow activeUntil => exact Or.inl (holdsContent_setActiveUntil h)
  | clearRow => exact Or.inl (holdsContent_clearActiveUntil h)
  | getRole | getContent | saveRoom | appendUpdate | saveSnapshot | deleteUpdatesThrough =>
    exact Or.inl h

theorem content_runData {data : Store} {call : StoreCall D} {entry : String × Bytes}
    (h : entry ∈ (call.runData cfg data).content.rows) :
    entry ∈ data.content.rows ∨
      ∃ text ∈ call.text, entry = (contentHashText cfg.platform text, encodeText text) := by
  cases call with
  | process now uuid op => exact content_process h
  | saveRow activeUntil =>
    refine Or.inl ?_
    simp only [StoreCall.runData, setActiveUntil] at h
    split at h <;> exact h
  | clearRow =>
    refine Or.inl ?_
    simp only [StoreCall.runData, clearActiveUntil] at h
    split at h
    · exact h
    · split at h <;> exact h
  | getRole | getContent | saveRoom | appendUpdate | saveSnapshot | deleteUpdatesThrough =>
    exact Or.inl h

/-- The store calls of a room add the hashes of its texts to its vault. -/
theorem holdsContent_calls {calls : StoreCalls D} {data : Store} {v hash : String}
    (hcalls : ∀ call ∈ calls, call.1.WritesOwn cfg)
    (h : (calls.foldl (fun data call => call.1.runData cfg data) data).holdsContent v hash = true) :
    data.holdsContent v hash = true ∨ v = cfg.vaultId ∧
      ∃ text ∈ callTexts calls, hash = contentHashText cfg.platform text := by
  induction calls generalizing data with
  | nil => exact Or.inl h
  | cons call calls ih =>
    have hrest : ∀ c ∈ calls, c.1.WritesOwn cfg :=
      fun c hc => hcalls c (List.mem_cons_of_mem call hc)
    rcases ih hrest h with hstep | ⟨hv, text, htext, hhash⟩
    · rcases holdsContent_runData (hcalls call List.mem_cons_self) hstep with
        hheld | ⟨hv, text, htext, hhash⟩
      · exact Or.inl hheld
      · exact Or.inr ⟨hv, text, List.mem_filterMap.mpr ⟨call, List.mem_cons_self, htext⟩, hhash⟩
    · obtain ⟨c, hc, hct⟩ := List.mem_filterMap.mp htext
      exact Or.inr ⟨hv, text, List.mem_filterMap.mpr ⟨c, List.mem_cons_of_mem call hc, hct⟩, hhash⟩

theorem content_calls {calls : StoreCalls D} {data : Store} {entry : String × Bytes}
    (h : entry ∈ (calls.foldl (fun data call => call.1.runData cfg data) data).content.rows) :
    entry ∈ data.content.rows ∨
      ∃ text ∈ callTexts calls, entry = (contentHashText cfg.platform text, encodeText text) := by
  induction calls generalizing data with
  | nil => exact Or.inl h
  | cons call calls ih =>
    rcases ih h with hstep | ⟨text, htext, hentry⟩
    · rcases content_runData hstep with hkept | ⟨text, htext, hentry⟩
      · exact Or.inl hkept
      · exact Or.inr ⟨text, List.mem_filterMap.mpr ⟨call, List.mem_cons_self, htext⟩, hentry⟩
    · obtain ⟨c, hc, hct⟩ := List.mem_filterMap.mp htext
      exact Or.inr ⟨text, List.mem_filterMap.mpr ⟨c, List.mem_cons_of_mem call hc, hct⟩, hentry⟩

end

end ObsidianSync
