import ObsidianSync.Lib.Register
import ObsidianSync.Server.Acceptance
import ObsidianSync.Server.Log

/-!
# Renames commute

The place of a file, its path with the folded form and the clock, is a
last-writer-wins register: a rename writes it, and the clock is the stamp.  As
the order of clocks is linear, the order in which the server processes a set of
renames does not matter.

## Main definitions

* `Placement`, `placement`, `target` — the register, and what a rename writes.
* `RenameOf`, `InSequence` — renames the server has no reason to
  refuse, in an order that keeps to the sequence of every device.

## Main results

* `accepted_rename` — such a rename is accepted.
* `placement_processStep` — it is a write to the register.
* `placement_processAll` — any order of a set of them leaves the place with the
  greatest clock.
-/

namespace ObsidianSync

/-- Where a file is, and since which rename. -/
structure Placement where
  path : String
  pathNormalized : String
  pathClock : PathClock
  deriving DecidableEq

/-- The stamp of the register. -/
def Placement.rank (place : Placement) : ℕ ×ₗ List ℕ := place.pathClock.rank

/-- Where a row has its file. -/
def placement (file : StoredFile) : Placement :=
  { path := file.path, pathNormalized := file.pathNormalized, pathClock := file.pathClock }

/-- Where a rename puts its file. -/
def target (P : Platform) (op : FileOp) : Option Placement :=
  match normalizePath P (op.newPath.getD ""), op.pathClock with
  | .ok path, some pathClock => some { path, pathNormalized := caseFoldPath P path, pathClock }
  | _, _ => none

/-- The op is one of a room, or its device and user may write to the vault. -/
def MaySend (op : FileOp) (userId : Option String) (s : Store) : Prop :=
  syntheticCollab op = true ∨
    ∃ device ∈ s.getDevice op.deviceId, device.vaultId = op.vaultId ∧ device.revoked = false ∧
      (truthy userId = true →
        (s.getRole op.vaultId (userId.getD "")).elim false Role.canWrite = true)

instance (op : FileOp) (userId : Option String) (s : Store) :
    Decidable (MaySend op userId s) := by
  unfold MaySend
  infer_instance

/-- A new rename of the file that is well formed, from someone who may write, to a path
that no other live file has. -/
structure RenameOf (P : Platform) (s : Store) (file : StoredFile) (call : ProcessCall) : Prop where
  kind : call.op.kind = .rename
  vaultId : call.op.vaultId = file.vaultId
  fileId : call.op.fileId = file.fileId
  fresh : s.getOpById call.op.opId = none
  writer : MaySend call.op call.userId s
  valid : (validatePayload P call.op s).1 = .ok ()
  clock : ∃ clock, requiredPathClock call.op.pathClock = .ok clock
  free : ∀ place ∈ target P call.op, ∀ other ∈ s.files.rows, LiveFile file.vaultId other →
    other.fileId ≠ file.fileId → other.pathNormalized ≠ place.pathNormalized

/-- The sequences the calls take from a device, in order.  A room's calls take none. -/
def seqsOf (deviceId : String) (calls : List ProcessCall) : List ℕ :=
  (calls.filter fun call => !syntheticCollab call.op && decide (call.op.deviceId = deviceId)).map
    fun call => call.op.deviceSeq

/-- The calls of every device come in its own sequence, from the next op on. -/
def InSequence (s : Store) (calls : List ProcessCall) : Prop :=
  ∀ device ∈ s.devices.rows, seqsOf device.deviceId calls
    = List.range' (device.lastDeviceSeq + 1) (seqsOf device.deviceId calls).length

instance (s : Store) (calls : List ProcessCall) : Decidable (InSequence s calls) := by
  unfold InSequence
  infer_instance

/-- A call of the device takes the first of its sequences. -/
theorem seqsOf_cons_own {call : ProcessCall} {calls : List ProcessCall}
    (hcollab : syntheticCollab call.op = false) :
    seqsOf call.op.deviceId (call :: calls)
      = call.op.deviceSeq :: seqsOf call.op.deviceId calls := by
  simp [seqsOf, hcollab]

/-- The other calls take none. -/
theorem seqsOf_cons_other {call : ProcessCall} {calls : List ProcessCall} {deviceId : String}
    (hother : ¬(syntheticCollab call.op = false ∧ call.op.deviceId = deviceId)) :
    seqsOf deviceId (call :: calls) = seqsOf deviceId calls := by
  have hskip : (!syntheticCollab call.op && decide (call.op.deviceId = deviceId)) = false := by
    cases hcollab : syntheticCollab call.op with
    | true => rfl
    | false =>
      have hid : call.op.deviceId ≠ deviceId := fun hid => hother ⟨hcollab, hid⟩
      simp [hid]
  rw [seqsOf, List.filter_cons_of_neg (by rw [hskip]; exact Bool.false_ne_true), seqsOf]

/-! ### One rename -/

section Step

variable {P : Platform} {s : Store} {file : StoredFile} {call : ProcessCall}

/-- A writer whose turn it is passes the checks on the device. -/
theorem checkDevice_of_turn {op : FileOp} {userId : Option String} (hwriter : MaySend op userId s)
    (hturn : ∀ device ∈ opDevice op s, op.deviceSeq = device.lastDeviceSeq + 1) :
    checkDevice op userId s = none := by
  unfold checkDevice
  rcases hwriter with hcollab | ⟨device, hdevice, hvault, hrevoked, hrole⟩
  · rw [if_pos hcollab]
  · cases hcollab : syntheticCollab op with
    | true => rfl
    | false =>
      have hseq := hturn device (by simpa [opDevice, hcollab] using hdevice)
      have hmay : (truthy userId &&
          !((s.getRole op.vaultId (userId.getD "")).elim false Role.canWrite)) = false := by
        cases ht : truthy userId with
        | false => rfl
        | true => simp [hrole ht]
      rw [Option.mem_def.mp hdevice]
      simp [hvault, hrevoked, hmay, hseq]

theorem opRow_of_renameOf (h : RenameOf P s file call)
    (hrow : s.getFile file.vaultId file.fileId = some file) : opRow call.op s = some file := by
  rw [opRow, h.vaultId, h.fileId, hrow]

/-- What a rename asks for, by its parts. -/
theorem exists_target (h : RenameOf P s file call) :
    ∃ place, target P call.op = some place ∧
      normalizePath P (call.op.newPath.getD file.path) = .ok place.path ∧
      place.pathNormalized = P.toLowerCase place.path ∧
      requiredPathClock call.op.pathClock = .ok place.pathClock := by
  obtain ⟨clock, hclock⟩ := h.clock
  have hvalid : validatePayload P call.op s = (.ok (), (validatePayload P call.op s).2) :=
    Prod.ext h.valid rfl
  have hpayload : ValidPayload P call.op := (validatePayload_ok hvalid).1
  have hpath : truthy call.op.newPath = true := hpayload.newPath (Or.inr h.kind)
  obtain ⟨path, hcanonical⟩ := hpayload.canonical hpath
  cases hnew : call.op.newPath with
  | none => simp [hnew] at hpath
  | some newPath =>
    rw [hnew] at hcanonical
    refine ⟨{ path, pathNormalized := caseFoldPath P path, pathClock := clock }, ?_, hcanonical,
      rfl, hclock⟩
    simp only [target, hnew, hcanonical, eq_of_requiredPathClock hclock]

/-- The path a rename asks for is free. -/
theorem pathFree_of_renameOf (h : RenameOf P s file call) {place : Placement}
    (htarget : target P call.op = some place)
    (hfold : place.pathNormalized = P.toLowerCase place.path) :
    PathFree P s call.op.vaultId place.path call.op.fileId := by
  intro collision hcollision
  obtain ⟨hmem, hlive, hpath⟩ := Store.of_findLiveFileByPath hcollision
  rw [h.vaultId] at hlive
  by_contra hother
  rw [h.fileId] at hother
  exact h.free place htarget collision hmem hlive hother (hpath.trans hfold.symm)

/-- **A rename whose turn it is is accepted.**  It writes the place of the row and nothing
else of it but the time. -/
theorem accepted_rename (h : RenameOf P s file call)
    (hrow : s.getFile file.vaultId file.fileId = some file)
    (hturn : ∀ device ∈ opDevice call.op s, call.op.deviceSeq = device.lastDeviceSeq + 1) :
    ∃ applied place, accepted P call.now call.uuid call.op call.userId s = some applied ∧
      applied.tx = s ∧ applied.file.key = file.key ∧ target P call.op = some place ∧
      placement applied.file = Register.write Placement.rank (placement file) place := by
  obtain ⟨place, htarget, hcanonical, hfold, hclock⟩ := exists_target h
  have hvalid : validatePayload P call.op s = (.ok (), s) := by
    have hok : validatePayload P call.op s = (.ok (), (validatePayload P call.op s).2) :=
      Prod.ext h.valid rfl
    refine Prod.ext h.valid ?_
    rw [(validatePayload_ok hok).2, checkedContent, h.kind]
    cases call.op.inlineText <;> rfl
  have hunique : uniquePath P s call.op.vaultId place.path call.op.fileId = .ok place.path :=
    uniquePath_of_pathFree (pathFree_of_renameOf h htarget hfold)
  have hnormalized : normalized P (call.op.newPath.getD file.path) = .ok place.path :=
    normalized_ok_iff.mpr hcanonical
  have happlied : accepted P call.now call.uuid call.op call.userId s
      = (applyRename P call.now call.op file s).toOption := by
    unfold accepted
    rw [h.fresh, checkDevice_of_turn h.writer hturn, hvalid]
    simp only [Option.isSome_none, Bool.or_self, Bool.false_eq_true, if_false]
    rw [← opRow, opRow_of_renameOf h hrow, applyOp, h.kind]
    simp [OpKind.isContent, requiredFile]
  unfold applyRename at happlied
  simp only [hclock, hnormalized, hunique] at happlied
  cases hwins : pathClockWins place.pathClock file.pathClock with
  | false =>
    refine ⟨{ file, tx := s }, place, ?_, rfl, rfl, htarget, ?_⟩
    · rw [happlied, hwins]
      rfl
    · rw [Register.write_of_le]
      by_contra hlt
      rw [← Bool.not_eq_true, pathClockWins_iff_rank_lt] at hwins
      exact hwins (not_le.mp hlt)
  | true =>
    refine ⟨{ file := renamedFile P call.now file place.path place.pathClock, tx := s }, place,
      ?_, rfl, rfl, htarget, ?_⟩
    · rw [happlied, hwins]
      rfl
    · have hlt : Placement.rank (placement file) < place.rank :=
        pathClockWins_iff_rank_lt.mp hwins
      rw [Register.write_of_lt hlt, placement]
      simp only [renamedFile, ← hfold]

/-- The devices after an accepted op: its own has moved forward. -/
theorem getDevice_commit (now : Time) (op : FileOp) {applied : Applied} (htx : applied.tx = s)
    (deviceId : String) :
    (commit now op (opDevice op s) applied).2.getDevice deviceId
      = if syntheticCollab op = false ∧ op.deviceId = deviceId then
          (s.getDevice deviceId).map fun device => { device with
            lastDeviceSeq := op.deviceSeq, lastSeq := s.nextSeq op.vaultId, lastSeen := some now }
        else s.getDevice deviceId := by
  rw [Store.getDevice, commit_devices, htx]
  cases hcollab : syntheticCollab op with
  | true => simp [opDevice, hcollab, Store.getDevice]
  | false =>
    have hown : opDevice op s = s.getDevice op.deviceId := by simp [opDevice, hcollab]
    rw [hown]
    cases hdevice : s.getDevice op.deviceId with
    | none =>
      by_cases hid : op.deviceId = deviceId
      · subst hid
        simp only [hdevice, Option.map_none, ite_self]
        exact hdevice
      · simp [hid, Store.getDevice]
    | some device =>
      have hkey : device.deviceId = op.deviceId := Table.key_of_get? hdevice
      dsimp only
      rw [Table.get?_set]
      by_cases hid : op.deviceId = deviceId
      · subst hid
        simp [hkey, hdevice]
      · simp [hkey, hid, Store.getDevice]

/-- The validation of a rename does not look at the store. -/
theorem validatePayload_rename {op : FileOp} (hkind : op.kind = .rename) (s t : Store) :
    (validatePayload P op s).1 = (validatePayload P op t).1 := by
  unfold validatePayload
  rw [hkind]
  split
  · rfl
  split
  · rfl
  split
  · rfl
  · rfl

end Step

/-! ### A set of renames -/

section Run

variable {P : Platform} {s : Store} {file : StoredFile} {call : ProcessCall}
  {calls order : List ProcessCall}

/-- The first of the calls of a device is its next op, and the others follow it. -/
theorem next_of_inSequence (h : InSequence s (call :: order)) {device : StoredDevice}
    (hcollab : syntheticCollab call.op = false)
    (hdevice : s.getDevice call.op.deviceId = some device) :
    call.op.deviceSeq = device.lastDeviceSeq + 1 ∧
      seqsOf call.op.deviceId order = List.range' (call.op.deviceSeq + 1)
        (seqsOf call.op.deviceId order).length := by
  have hkey : device.deviceId = call.op.deviceId := Table.key_of_get? hdevice
  have hseqs := h device (Table.mem_of_get? hdevice)
  rw [hkey, seqsOf_cons_own hcollab, List.length_cons, List.range'_succ, List.cons.injEq] at hseqs
  rw [hseqs.1]
  exact ⟨rfl, hseqs.2⟩

/-- Who may write after an accepted op: whoever might before. -/
theorem maySend_of_devices {op : FileOp} {userId : Option String} {s' : Store}
    (h : MaySend op userId s) (hroles : s'.roles = s.roles) {moved : Prop} [Decidable moved]
    {deviceSeq lastSeq : ℕ} {lastSeen : Option Time}
    (hdevice : s'.getDevice op.deviceId = if moved then
        (s.getDevice op.deviceId).map fun device => { device with
          lastDeviceSeq := deviceSeq, lastSeq, lastSeen }
      else s.getDevice op.deviceId) : MaySend op userId s' := by
  rcases h with hcollab | ⟨device, hget, hvault, hrevoked, hrole⟩
  · exact Or.inl hcollab
  · rw [Option.mem_def] at hget
    have hrole' : truthy userId = true →
        (s'.getRole op.vaultId (userId.getD "")).elim false Role.canWrite = true := by
      rw [Store.getRole, hroles]
      exact hrole
    by_cases hmoved : moved
    · rw [if_pos hmoved, hget] at hdevice
      exact Or.inr ⟨_, hdevice, hvault, hrevoked, hrole'⟩
    · rw [if_neg hmoved, hget] at hdevice
      exact Or.inr ⟨device, hdevice, hvault, hrevoked, hrole'⟩

/-- The other calls are still in sequence when the first one is processed. -/
theorem inSequence_of_devices {s' : Store} (h : InSequence s (call :: order))
    (hdevices : ∀ deviceId, s'.getDevice deviceId
      = if syntheticCollab call.op = false ∧ call.op.deviceId = deviceId then
          (s.getDevice deviceId).map fun device => { device with
            lastDeviceSeq := call.op.deviceSeq, lastSeq := s.nextSeq call.op.vaultId,
            lastSeen := some call.now }
        else s.getDevice deviceId) : InSequence s' order := by
  intro device hmem
  have hdevice : s'.getDevice device.deviceId = some device := Table.get?_key hmem
  rw [hdevices device.deviceId] at hdevice
  by_cases hown : syntheticCollab call.op = false ∧ call.op.deviceId = device.deviceId
  · rw [if_pos hown, Option.map_eq_some_iff] at hdevice
    obtain ⟨before, hbefore, hmoved⟩ := hdevice
    rw [← hown.2] at hbefore ⊢
    have hlast : call.op.deviceSeq = device.lastDeviceSeq :=
      congrArg StoredDevice.lastDeviceSeq hmoved
    rw [← hlast]
    exact (next_of_inSequence h hown.1 hbefore).2
  · rw [if_neg hown] at hdevice
    have hseqs := h device (Table.mem_of_get? hdevice)
    rw [seqsOf_cons_other hown] at hseqs
    exact hseqs

/-- **What one rename does**: it writes the register, and the other renames stay as they
are. -/
theorem placement_processStep (hrow : s.getFile file.vaultId file.fileId = some file)
    (hrenames : ∀ c ∈ call :: order, RenameOf P s file c)
    (hopId : ∀ c ∈ order, c.op.opId ≠ call.op.opId) (hsequence : InSequence s (call :: order)) :
    ∃ row place, target P call.op = some place ∧
      placement row = Register.write Placement.rank (placement file) place ∧
      row.key = file.key ∧
      (processStep P s call).getFile row.vaultId row.fileId = some row ∧
      (∀ c ∈ order, RenameOf P (processStep P s call) row c) ∧
      InSequence (processStep P s call) order := by
  -- the renames of a device come in the order of their numbers
  have hturn : ∀ device ∈ opDevice call.op s,
      call.op.deviceSeq = device.lastDeviceSeq + 1 := by
    intro device hdevice
    unfold opDevice at hdevice
    split at hdevice
    · simp at hdevice
    · next hcollab =>
      exact (next_of_inSequence hsequence (Bool.eq_false_iff.mpr hcollab) hdevice).1
  obtain ⟨applied, place, haccepted, htx, hkey, htarget, hplace⟩ :=
    accepted_rename (hrenames call List.mem_cons_self) hrow hturn
  have hafter : processStep P s call
      = (commit call.now call.op (opDevice call.op s) applied).2 := by
    rw [processStep, process_of_accepted haccepted]
  have hdevices := getDevice_commit call.now call.op htx
  rw [← hafter] at hdevices
  have hvaultId : applied.file.vaultId = file.vaultId := (Prod.mk.inj hkey).1
  have hfileId : applied.file.fileId = file.fileId := (Prod.mk.inj hkey).2
  refine ⟨applied.file, place, htarget, hplace, hkey, ?_, ?_, ?_⟩
  · rw [Store.getFile, hafter, commit_files]
    exact Table.get?_set_self _ _
  · intro c hc
    have h := hrenames c (List.mem_cons_of_mem _ hc)
    refine ⟨h.kind, h.vaultId.trans hvaultId.symm, h.fileId.trans hfileId.symm, ?_, ?_, ?_,
      h.clock, ?_⟩
    · -- the log has one op more, and the other renames have other ids
      have hops : (processStep P s call).ops
          = s.ops ++ [loggedOp call.now call.op applied (s.nextSeq call.op.vaultId)] := by
        rw [hafter, commit_ops, htx]
      rw [Store.getOpById_eq_none_iff, hops]
      intro logged hlogged
      rcases List.mem_append.mp hlogged with hold | hnew
      · exact Store.getOpById_eq_none_iff.mp h.fresh logged hold
      · rw [List.mem_singleton.mp hnew]
        exact (hopId c hc).symm
    · have hroles : (processStep P s call).roles = s.roles := by
        rw [hafter, commit_roles, htx]
      exact maySend_of_devices h.writer hroles (hdevices _)
    · rw [validatePayload_rename h.kind _ s]
      exact h.valid
    · intro place' hplace' other hother hlive hid
      have hfiles : (processStep P s call).files = s.files.set applied.file := by
        rw [hafter, commit_files, htx]
      rw [hfiles, Table.mem_set_iff] at hother
      rcases hother with rfl | ⟨hother, -⟩
      · exact absurd rfl hid
      · rw [hvaultId] at hlive
        rw [hfileId] at hid
        exact h.free place' hplace' other hother hlive hid
  · exact inSequence_of_devices hsequence hdevices

/-- **A run of renames writes the register once each.** -/
theorem placement_foldl (hrow : s.getFile file.vaultId file.fileId = some file)
    (hrenames : ∀ call ∈ order, RenameOf P s file call)
    (hopIds : (order.map fun call => call.op.opId).Nodup) (hsequence : InSequence s order) :
    ((Run.final (processStep P) s order).getFile file.vaultId file.fileId).map placement
      = some ((order.filterMap fun call => target P call.op).foldl
          (Register.write Placement.rank) (placement file)) := by
  induction order generalizing s file with
  | nil =>
    rw [Run.final_nil, hrow]
    rfl
  | cons call order ih =>
    rw [List.map_cons, List.nodup_cons] at hopIds
    have hopId : ∀ c ∈ order, c.op.opId ≠ call.op.opId := by
      intro c hc heq
      exact hopIds.1 (List.mem_map.mpr ⟨c, hc, heq⟩)
    obtain ⟨row, place, htarget, hplace, hkey, hget, hrest, hturns⟩ :=
      placement_processStep hrow hrenames hopId hsequence
    have hrun := ih hget hrest hopIds.2 hturns
    rw [(Prod.mk.inj hkey).1, (Prod.mk.inj hkey).2] at hrun
    rw [Run.final_cons, hrun, hplace]
    simp only [List.filterMap_cons, htarget, List.foldl_cons]

/-- The renames of a set with distinct clocks write with distinct stamps. -/
theorem nodup_ranks (hclocks : (calls.map fun call => call.op.pathClock).Nodup) :
    ((calls.filterMap fun call => target P call.op).map Placement.rank).Nodup := by
  have hclock : ∀ {op : FileOp} {place : Placement}, target P op = some place →
      op.pathClock = some place.pathClock := by
    intro op place h
    unfold target at h
    split at h
    · next hsome =>
      rw [hsome, ← Option.some.inj h]
    · simp at h
  have hranks : ∀ a b : ProcessCall, a.op.pathClock ≠ b.op.pathClock →
      ∀ place, target P a.op = some place → ∀ place', target P b.op = some place' →
        place.rank ≠ place'.rank := by
    intro a b hne place hplace place' hplace' hrank
    have hclockEq : place.pathClock = place'.pathClock := PathClock.rank_injective hrank
    rw [hclock hplace, hclock hplace', hclockEq] at hne
    exact hne rfl
  rw [List.nodup_iff_pairwise_ne, List.pairwise_map] at hclocks ⊢
  rw [List.pairwise_filterMap]
  exact List.Pairwise.imp (fun {a b} hne => hranks a b hne) hclocks

/-- **Renames commute.**  A set of renames with pairwise distinct clocks, processed in any
order that keeps to the sequence of every device, leaves the place with the greatest clock
among theirs and the first one. -/
theorem placement_processAll (hrow : s.getFile file.vaultId file.fileId = some file)
    (hrenames : ∀ call ∈ calls, RenameOf P s file call)
    (hopIds : (calls.map fun call => call.op.opId).Nodup)
    (hclocks : (calls.map fun call => call.op.pathClock).Nodup) (hperm : order.Perm calls)
    (hsequence : InSequence s order) :
    ((Run.final (processStep P) s order).getFile file.vaultId file.fileId).map placement
      = Register.latest Placement.rank
          (placement file :: calls.filterMap fun call => target P call.op) := by
  have hrenames' : ∀ call ∈ order, RenameOf P s file call :=
    fun call hcall => hrenames call (hperm.mem_iff.mp hcall)
  have hopIds' : (order.map fun call => call.op.opId).Nodup :=
    (hperm.map fun call => call.op.opId).nodup_iff.mpr hopIds
  have htargets := hperm.filterMap fun call => target P call.op
  have hranks : ((calls.filterMap fun call => target P call.op).map Placement.rank).Nodup :=
    nodup_ranks hclocks
  rw [placement_foldl hrow hrenames' hopIds' hsequence,
    Register.foldl_write_perm (placement file) htargets hranks, Register.foldl_write_eq_latest]

end Run

/-- A note of the sample vault. -/
def movableRow : StoredFile :=
  { fileId := "f", vaultId := "v", type := .note, path := "a.md", pathNormalized := "a.md",
    pathClock := { lamport := 1, deviceId := "d1" }, contentVV := sampleVV "d1" 1,
    contentHash := none, size := none, blobRef := none, contentEncoding := none,
    deleteVV := none, deleted := false, deletedAt := none, epoch := 0, conflictId := none,
    activeUntil := none, updatedAt := 0 }

/-- A rename of the note. -/
def renameCall (newPath deviceId : String) (deviceSeq lamport : ℕ) : ProcessCall :=
  { now := lamport, uuid := sampleUuid, userId := some "u",
    op := { opId := newPath, deviceId, deviceSeq, fileId := "f", vaultId := "v", kind := .rename,
            type := .note, newPath := some newPath, pathClock := some { lamport, deviceId } } }

theorem placement_processAll_threeRenames :
    ((Run.final (processStep samplePlatform) (sampleStore.saveFile movableRow)
        [renameCall "d.md" "d2" 1 3, renameCall "b.md" "d1" 1 2,
          renameCall "c.md" "d1" 2 3]).getFile "v" "f").map placement
      = some { path := "d.md", pathNormalized := "d.md",
               pathClock := { lamport := 3, deviceId := "d2" } } := by
  have hrename : ∀ call ∈ [renameCall "b.md" "d1" 1 2, renameCall "c.md" "d1" 2 3,
      renameCall "d.md" "d2" 1 3],
      RenameOf samplePlatform (sampleStore.saveFile movableRow) movableRow call := by
    intro call hcall
    simp only [List.mem_cons, List.not_mem_nil, or_false] at hcall
    rcases hcall with rfl | rfl | rfl
    all_goals
      exact ⟨rfl, rfl, rfl, by decide +kernel, by decide +kernel, by decide +kernel,
        ⟨_, rfl⟩, by decide +kernel⟩
  have h := placement_processAll (P := samplePlatform) (s := sampleStore.saveFile movableRow)
    (by decide +kernel) hrename (by decide +kernel) (by decide +kernel)
    (List.perm_append_singleton (renameCall "d.md" "d2" 1 3)
      [renameCall "b.md" "d1" 1 2, renameCall "c.md" "d1" 2 3]).symm (by decide +kernel)
  refine h.trans ?_
  decide +kernel

end ObsidianSync
