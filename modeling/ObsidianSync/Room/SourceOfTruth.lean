import ObsidianSync.Room.Bookkeeping
import ObsidianSync.Server.Rebuild

/-!
# The log as the source of the rows

Ops are logged with what they write, those of the rooms among them, and the lease of a room is
nothing that the log would say.  Two writers go past the log: the resolution of a conflict, and
the bookkeeping of a room that writes a row back as it was before an op.  On the tables, whose
rows have their ids for a key, a create that names a file of another vault is a third.

## Main definitions

* `RowsLogged` — a step that logs nothing changes no row.
* `KeepsToLog` — a step by none of the three writers.

## Main results

* `rebuilt_rowStep` — such a step keeps the rows those that the log makes.
* `rowsFollowLog_of_keepsToLog` — **in runs of such steps the log determines the rows.**
* `not_rowsFollowLog_resolved`, `not_rowsFollowLog_writtenBack` — a resolution and a write back
  change the rows and not the log.
-/

namespace ObsidianSync

/-! ### The property and the condition -/

/-- The rows of the vault follow its log: no step changes them without logging an op. -/
def RowsLogged (P : Platform) (vaultId : String) (s : RowStore) (e : RowEvent) : Prop :=
  vaultLog (rowStep P s e).data vaultId = vaultLog s.data vaultId →
    bareRows (rowStep P s e).data vaultId = bareRows s.data vaultId

/-- A vault without files and without a log. -/
structure EmptyVault (vaultId : String) (data : Store) : Prop where
  rows : bareRows data vaultId = []
  log : vaultLog data vaultId = []

/-- A create that is accepted names no file of another vault. -/
def CreatesOwnFile (P : Platform) (data : Store) : ServerEvent → Prop
  | .process now uuid op userId =>
    (accepted P now uuid op userId data).isSome = true → NamesOwnFile data op
  | _ => True

/-- No conflict is resolved, no file of another vault is created over, and no row is changed
that a call of a room has read and not written yet. -/
def KeepsToLog (P : Platform) (s : RowStore) : RowEvent → Prop
  | .commit event => Undisturbed StoredFile.bare P s (.commit event) ∧ NoResolution P s.data event ∧
      CreatesOwnFile P s.data event
  | _ => True

instance (P : Platform) (data : Store) : (event : ServerEvent) →
    Decidable (NoResolution P data event)
  | .resolve _ input => inferInstanceAs (Decidable (resolution P input data = none))
  | .process .. | .claim .. | .release .. | .saveDevice _ | .setRole .. | .saveBlob _
  | .putContent .. => isTrue trivial

instance (P : Platform) (data : Store) : (event : ServerEvent) →
    Decidable (CreatesOwnFile P data event)
  | .process now uuid op userId => inferInstanceAs (Decidable
      ((accepted P now uuid op userId data).isSome = true → NamesOwnFile data op))
  | .resolve .. | .claim .. | .release .. | .saveDevice _ | .setRole .. | .saveBlob _
  | .putContent .. => isTrue trivial

instance (P : Platform) (s : RowStore) : (e : RowEvent) → Decidable (KeepsToLog P s e)
  | .commit event => inferInstanceAs (Decidable (Undisturbed StoredFile.bare P s (.commit event) ∧
      NoResolution P s.data event ∧ CreatesOwnFile P s.data event))
  | .start .. | .next .. | .fails .. | .restart => isTrue trivial

/-! ### Steps -/

section

variable {P : Platform} {vaultId : String} {s : RowStore}

theorem KeepsToLog.undisturbed {e : RowEvent} (h : KeepsToLog P s e) :
    Undisturbed StoredFile.bare P s e := by
  cases e with
  | commit event => exact h.1
  | start | next | fails | restart => exact h

theorem leaseless_bare : Leaseless StoredFile.bare := fun _ => rfl

/-- Bookkeeping that writes current rows back keeps the vault rebuilt. -/
theorem rebuilt_next (hread : RowsRead StoredFile.bare s) (nextVault fileId : String)
    (stamp : Option Time) (h : Rebuilt P s.data vaultId) :
    Rebuilt P (s.next nextVault fileId stamp).data vaultId := by
  rcases data_next leaseless_bare hread nextVault fileId stamp with
    hdata | ⟨file, row, hrow, hsame, hdata⟩
  · rw [hdata]
    exact h
  · rw [hdata]
    exact h.of_bare (Table.mem_of_get? hrow) rfl hsame rfl

/-- **A step that keeps to the log** keeps the rows those that the log makes. -/
theorem rebuilt_rowStep {e : RowEvent} (hread : RowsRead StoredFile.bare s) (he : KeepsToLog P s e)
    (h : Rebuilt P s.data vaultId) : Rebuilt P (rowStep P s e).data vaultId := by
  cases e with
  | start startVault fileId call =>
    simp only [rowStep, (start_frame startVault fileId call).1]
    exact h
  | next nextVault fileId stamp => exact rebuilt_next hread nextVault fileId stamp h
  | fails | restart => exact h
  | commit event => exact rebuilt_serverStep he.2.1 h

theorem EmptyVault.rebuilt {data : Store} (h : EmptyVault vaultId data) :
    Rebuilt P data vaultId := by
  rw [Rebuilt, h.rows, h.log]
  rfl

/-- Where the rows are rebuilt from the log, equal logs come with equal rows. -/
theorem bareRows_eq_of_rebuilt {data data' : Store} (h : Rebuilt P data vaultId)
    (h' : Rebuilt P data' vaultId) (hlog : vaultLog data vaultId = vaultLog data' vaultId) :
    bareRows data vaultId = bareRows data' vaultId := by
  rw [h, h', hlog]

end

/-! ### Runs -/

/-- The rows that were read are current, and all rows are those that the log makes. -/
def Followed (P : Platform) (vaultId : String) (s : RowStore) : Prop :=
  RowsRead StoredFile.bare s ∧ Rebuilt P s.data vaultId

theorem followed_rowStep {P : Platform} {vaultId : String} {s : RowStore} {e : RowEvent}
    (h : Followed P vaultId s) (he : KeepsToLog P s e) : Followed P vaultId (rowStep P s e) :=
  ⟨rowsRead_rowStep leaseless_bare h.1 he.undisturbed, rebuilt_rowStep h.1 he h.2⟩

theorem followed_initial {P : Platform} {vaultId : String} {data : Store}
    (hdata : EmptyVault vaultId data) : Followed P vaultId (RowStore.initial data) :=
  ⟨rowsRead_initial data, hdata.rebuilt⟩

/-- **In runs that keep to the log the log determines the rows**: in every state they are those
that the log makes, no step changes them without logging an op, and two runs that end with the
same log end with the same rows. -/
theorem rowsFollowLog_of_keepsToLog (P : Platform) (vaultId : String) {data data' : Store}
    (hdata : EmptyVault vaultId data) (hdata' : EmptyVault vaultId data')
    {es es' : List RowEvent}
    (hes : Run.EachStep (rowStep P) (KeepsToLog P) (RowStore.initial data) es)
    (hes' : Run.EachStep (rowStep P) (KeepsToLog P) (RowStore.initial data') es') :
    Run.Throughout (rowStep P) (fun s => Rebuilt P s.data vaultId) (RowStore.initial data) es ∧
    Run.EachStep (rowStep P) (RowsLogged P vaultId) (RowStore.initial data) es ∧
      (vaultLog (Run.final (rowStep P) (RowStore.initial data) es).data vaultId
          = vaultLog (Run.final (rowStep P) (RowStore.initial data') es').data vaultId →
        bareRows (Run.final (rowStep P) (RowStore.initial data) es).data vaultId
          = bareRows (Run.final (rowStep P) (RowStore.initial data') es').data vaultId) := by
  have hrun : ∀ {data : Store} {es : List RowEvent}, EmptyVault vaultId data →
      Run.EachStep (rowStep P) (KeepsToLog P) (RowStore.initial data) es →
      Run.Throughout (rowStep P) (Followed P vaultId) (RowStore.initial data) es :=
    fun hdata hes => Run.throughout_of_invariant (fun _ _ => followed_rowStep)
      (followed_initial hdata) hes
  refine ⟨(hrun hdata hes).mono fun _ h => h.2, ?_,
    bareRows_eq_of_rebuilt (hrun hdata hes).final.2 (hrun hdata' hes').final.2⟩
  refine Run.eachStep_of_invariant (I := Followed P vaultId) (fun _ _ => followed_rowStep) ?_
    (followed_initial hdata) hes
  exact fun s e h he => bareRows_eq_of_rebuilt (rebuilt_rowStep h.1 he h.2) h.2

/-! ### Two runs with one log -/

/-- The op by which a room writes the text back to its note. -/
def sampleFlushedText : FileOp :=
  { sampleContentOp .update "o2" "collab:f1" "f1" 1 none
      (VersionVector.bump (sampleVV "d1" 1) "collab:f1") "two" with
    baseContentVV := some (sampleVV "d1" 1) }

/-- A note that is created, opened in a room and flushed. -/
def sampleFlushed : List RowEvent :=
  sampleNote ++
    [.commit (.process 4 sampleUuid sampleFlushedText none), .start "v" "f1" .demoteLocked] ++
    List.replicate 5 (.next "v" "f1" (some 4))

/-- The flushed note, and the same after a claim of a conflict there is not. -/
theorem rowsFollowLog_flushedNote :
    Run.Throughout (rowStep samplePlatform) (fun s => Rebuilt samplePlatform s.data "v")
        (RowStore.initial sampleStore) sampleFlushed ∧
    Run.EachStep (rowStep samplePlatform) (RowsLogged samplePlatform "v")
        (RowStore.initial sampleStore) sampleFlushed ∧
      (vaultLog (Run.final (rowStep samplePlatform) (RowStore.initial sampleStore)
            sampleFlushed).data "v"
          = vaultLog (Run.final (rowStep samplePlatform) (RowStore.initial sampleStore)
            (.commit (.claim "v" "u" "d2" "c") :: sampleFlushed)).data "v" →
        bareRows (Run.final (rowStep samplePlatform) (RowStore.initial sampleStore)
            sampleFlushed).data "v"
          = bareRows (Run.final (rowStep samplePlatform) (RowStore.initial sampleStore)
            (.commit (.claim "v" "u" "d2" "c") :: sampleFlushed)).data "v") :=
  rowsFollowLog_of_keepsToLog samplePlatform "v" ⟨rfl, rfl⟩ ⟨rfl, rfl⟩ (by decide +kernel)
    (by decide +kernel)

/-- A note with two versions, in a conflict that the second device claims. -/
def sampleConflicted : List RowEvent :=
  [.commit (.process 0 (sampleId 0)
      (sampleContentOp .create "o1" "d1" "f1" 1 (some "a.md") (sampleVV "d1" 1) "one") (some "u")),
   .commit (.process 1 (sampleId 1)
      (sampleContentOp .create "o2" "d2" "f1" 1 (some "a.md") (sampleVV "d2" 1) "two") (some "u")),
   .commit (.claim "v" "u" "d2" (sampleId 1).1)]

/-- The same, and the conflict is resolved. -/
def sampleResolved : List RowEvent :=
  sampleConflicted ++ [.commit (.resolve 2
    { vaultId := "v", userId := "u", conflictId := (sampleId 1).1, deviceId := "d2"
      inlineText := some "three", resolvedVV := sampleVV "d2" 2 })]

/-- **The two runs end with the same log, and the note has another content.** -/
theorem not_rowsFollowLog_resolved :
    vaultLog (Run.final (rowStep samplePlatform) (RowStore.initial sampleStore)
        sampleConflicted).data "v"
        = vaultLog (Run.final (rowStep samplePlatform) (RowStore.initial sampleStore)
          sampleResolved).data "v" ∧
      (bareRows (Run.final (rowStep samplePlatform) (RowStore.initial sampleStore)
          sampleConflicted).data "v").map StoredFile.contentHash
        ≠ (bareRows (Run.final (rowStep samplePlatform) (RowStore.initial sampleStore)
          sampleResolved).data "v").map StoredFile.contentHash := by
  constructor <;> decide +kernel

/-- **So it is when a heartbeat writes a deleted note back**: with the log of its delete it is
live, unlike without the heartbeat. -/
theorem not_rowsFollowLog_writtenBack :
    vaultLog (Run.final (rowStep samplePlatform) (RowStore.initial sampleStore)
        (sampleNote ++ [sampleNoteDeleted])).data "v"
        = vaultLog (Run.final (rowStep samplePlatform) (RowStore.initial sampleStore)
          sampleHeartbeatAroundDelete).data "v" ∧
      (bareRows (Run.final (rowStep samplePlatform) (RowStore.initial sampleStore)
          (sampleNote ++ [sampleNoteDeleted])).data "v").map StoredFile.deleted
        ≠ (bareRows (Run.final (rowStep samplePlatform) (RowStore.initial sampleStore)
          sampleHeartbeatAroundDelete).data "v").map StoredFile.deleted := by
  constructor <;> decide +kernel

end ObsidianSync
