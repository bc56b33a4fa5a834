import Mathlib.Data.List.Range
import ObsidianSync.Lib.Run
import ObsidianSync.Server.System

/-!
# The log of ops

`process` is the only writer of the log, of the sequence counters and of the
device rows, and it writes the three together.  So a run of its calls that
starts with nothing logged keeps them in step: the log of a vault is numbered
from 1 without gaps, an op id is logged once, and a device row counts the ops
its device has in the log.

## Main definitions

* `vaultOps`, `deviceOps` — the log entries of a vault, of a device.
* `LogNumbered` — the log of a vault is numbered from 1 without gaps.
* `LogIntegrity` — what holds between the log, the counters and the devices.
* `ProcessCall`, `processStep` — runs of `process`.

## Main results

* `logNumbered_serverStep` — every event keeps the numbering.
* `logInvariant_processStep` — every call keeps the log invariant.
* `logIntegrity_run` — the log has its integrity in every state of a run.
-/

namespace ObsidianSync

/-! ### The log of a vault -/

/-- The log entries of a vault. -/
def vaultOps (s : Store) (vaultId : String) : List StoredOp :=
  s.ops.filter fun op => op.vaultId = vaultId

/-- The log of a vault is numbered from 1 without gaps. -/
structure LogNumbered (vaultId : String) (s : Store) : Prop where
  seqs : (vaultOps s vaultId).map StoredOp.seq = List.range' 1 (vaultOps s vaultId).length
  nextSeq : s.nextSeq vaultId = (vaultOps s vaultId).length + 1

theorem vaultOps_serverStep (P : Platform) (s : Store) (ev : ServerEvent) (vaultId : String) :
    vaultOps (serverStep P s ev) vaultId
      = vaultOps s vaultId
        ++ (loggedEntry P s ev).toList.filter fun op => op.vaultId = vaultId := by
  rw [vaultOps, ops_serverStep, List.filter_append, vaultOps]

/-- A logged op has the next sequence of its vault. -/
theorem seq_loggedEntry {P : Platform} {s : Store} {ev : ServerEvent} {op : StoredOp}
    (h : loggedEntry P s ev = some op) : op.seq = s.nextSeq op.vaultId := by
  cases ev with
  | process now uuid fileOp userId =>
    simp only [loggedEntry, Option.map_eq_some_iff] at h
    obtain ⟨applied, -, rfl⟩ := h
    rfl
  | claim | release | resolve | saveDevice | setRole | saveBlob | putContent =>
    simp [loggedEntry] at h

/-- Every event keeps the numbering. -/
theorem logNumbered_serverStep {P : Platform} {vaultId : String} {s : Store}
    (h : LogNumbered vaultId s) (ev : ServerEvent) :
    LogNumbered vaultId (serverStep P s ev) := by
  have hops := vaultOps_serverStep P s ev vaultId
  have hnext := nextSeq_serverStep P s ev vaultId
  cases hlog : loggedEntry P s ev with
  | none =>
    rw [hlog] at hops hnext
    simp only [Option.toList_none, List.filter_nil, List.append_nil, List.length_nil,
      Nat.add_zero] at hops hnext
    exact ⟨by rw [hops]; exact h.seqs, by rw [hops, hnext]; exact h.nextSeq⟩
  | some op =>
    have hseq := seq_loggedEntry hlog
    rw [hlog] at hops hnext
    by_cases hvault : op.vaultId = vaultId
    · simp only [Option.toList_some, hvault, decide_true, List.filter_cons_of_pos,
        List.filter_nil, List.length_singleton] at hops hnext
      constructor
      · rw [hops, List.map_append, h.seqs, List.length_append, List.length_singleton,
          List.range'_concat]
        simp [hseq, hvault, h.nextSeq, Nat.add_comm]
      · rw [hops, hnext, h.nextSeq, List.length_append, List.length_singleton]
    · simp only [Option.toList_some, hvault, decide_false, Bool.false_eq_true,
        not_false_eq_true, List.filter_cons_of_neg, List.filter_nil, List.append_nil,
        List.length_nil, Nat.add_zero] at hops hnext
      exact ⟨by rw [hops]; exact h.seqs, by rw [hops, hnext]; exact h.nextSeq⟩

/-- A numbered log is in vault order as it stands. -/
theorem opsByVault_eq {vaultId : String} {s : Store} (h : LogNumbered vaultId s) :
    s.opsByVault vaultId = vaultOps s vaultId := by
  refine List.Pairwise.insertionSort_eq ?_
  have hsorted : ((vaultOps s vaultId).map StoredOp.seq).Pairwise (· ≤ ·) := by
    rw [h.seqs]
    exact (List.pairwise_lt_range' (s := 1)).imp Nat.le_of_lt
  exact List.pairwise_map.mp hsorted

/-- The whole log of a vault, as `get_ops` gives it page by page. -/
def wholeLog (s : Store) (vaultId : String) : List AppliedOp :=
  s.listOps vaultId 0 s.ops.length

theorem wholeLog_eq {vaultId : String} {s : Store} (h : LogNumbered vaultId s) :
    wholeLog s vaultId = (vaultOps s vaultId).map StoredOp.toApplied := by
  have hpos : ∀ op ∈ vaultOps s vaultId, op.seq > 0 := by
    intro op hop
    have hmem : op.seq ∈ (vaultOps s vaultId).map StoredOp.seq := List.mem_map_of_mem hop
    rw [h.seqs, List.mem_range'_1] at hmem
    omega
  have hlen : (vaultOps s vaultId).length ≤ s.ops.length := List.length_filter_le _ _
  rw [wholeLog, Store.listOps, opsByVault_eq h,
    List.filter_eq_self.mpr (by simpa using hpos), List.take_of_length_le hlen]

/-! ### The log of a device -/

/-- The log entries of a device. -/
def deviceOps (s : Store) (deviceId : String) : List StoredOp :=
  s.ops.filter fun op => op.deviceId = deviceId

/-- The log of a device agrees with its row: its ops are those of its vault that
carry the device sequences up to the last one, and the vault sequences grow with
them. -/
structure DeviceLogged (s : Store) (device : StoredDevice) : Prop where
  vaultId : ∀ op ∈ deviceOps s device.deviceId, op.vaultId = device.vaultId
  deviceSeqs : (deviceOps s device.deviceId).map StoredOp.deviceSeq
    = List.range' 1 device.lastDeviceSeq
  increasing : (deviceOps s device.deviceId).Pairwise fun a b => a.seq < b.seq

/-- **The integrity of the log**: every vault's log is numbered from 1 without
gaps, no op id is logged twice, every registered device has the ops its row
counts, and an op that is sent again is answered as it was before, without any
effect. -/
structure LogIntegrity (P : Platform) (s : Store) : Prop where
  numbered : ∀ vaultId, LogNumbered vaultId s
  distinct : (s.ops.map StoredOp.opId).Nodup
  devices : ∀ device ∈ s.devices.rows, DeviceLogged s device
  idempotent : ∀ logged ∈ s.ops, ∀ now uuid userId,
    process P now uuid logged.payload userId s = (.ok logged.result, s)

/-- A call of `process`, with what it takes from outside. -/
structure ProcessCall where
  now : Time
  uuid : Uuid
  op : FileOp
  userId : Option String

/-- The call as an event of the server. -/
def ProcessCall.event (call : ProcessCall) : ServerEvent :=
  .process call.now call.uuid call.op call.userId

/-- The store after a call. -/
def processStep (P : Platform) (s : Store) (call : ProcessCall) : Store :=
  (process P call.now call.uuid call.op call.userId s).2

theorem processStep_eq (P : Platform) (s : Store) (call : ProcessCall) :
    processStep P s call = serverStep P s call.event := rfl

/-- Whether an id has the form of the ids that rooms sign their ops with. -/
def CollabId (deviceId : String) : Prop := ∃ fileId, deviceId = "collab:" ++ fileId

/-- A store before the first op: nothing logged, no sequence taken, and every
registered device, none under the id of a room, at sequence 0. -/
structure FreshLog (s : Store) : Prop where
  ops : s.ops = []
  seqs : s.seqs = Table.empty
  lastDeviceSeq : ∀ device ∈ s.devices.rows, device.lastDeviceSeq = 0
  ordinary : ∀ device ∈ s.devices.rows, ¬ CollabId device.deviceId

/-! ### The invariant -/

/-- What the calls keep: the numbering, the ids, and the rows of the devices. -/
structure LogInvariant (s : Store) : Prop where
  numbered : ∀ vaultId, LogNumbered vaultId s
  distinct : (s.ops.map StoredOp.opId).Nodup
  payload : ∀ logged ∈ s.ops, logged.payload.opId = logged.opId
  devices : ∀ device ∈ s.devices.rows, DeviceLogged s device
  ordinary : ∀ device ∈ s.devices.rows, ¬ CollabId device.deviceId

theorem FreshLog.logInvariant {s : Store} (h : FreshLog s) : LogInvariant s := by
  have hvault : ∀ vaultId, vaultOps s vaultId = [] := by
    intro vaultId
    rw [vaultOps, h.ops, List.filter_nil]
  have hdevice : ∀ deviceId, deviceOps s deviceId = [] := by
    intro deviceId
    rw [deviceOps, h.ops, List.filter_nil]
  constructor
  · intro vaultId
    refine ⟨by rw [hvault]; rfl, ?_⟩
    rw [hvault, Store.nextSeq, h.seqs]
    rfl
  · rw [h.ops]
    exact List.nodup_nil
  · intro logged hmem
    simp [h.ops] at hmem
  · intro device hmem
    constructor
    · simp [hdevice]
    · rw [hdevice, h.lastDeviceSeq device hmem]
      rfl
    · rw [hdevice]
      exact List.Pairwise.nil
  · exact h.ordinary

/-- An op that is logged is found by its id. -/
theorem LogInvariant.getOpById {s : Store} (h : LogInvariant s) {logged : StoredOp}
    (hmem : logged ∈ s.ops) : s.getOpById logged.opId = some logged := by
  cases hget : s.getOpById logged.opId with
  | none => exact absurd rfl (Store.getOpById_eq_none_iff.mp hget logged hmem)
  | some found =>
    obtain ⟨hfound, hid⟩ := Store.mem_of_getOpById hget
    rw [List.inj_on_of_nodup_map h.distinct hfound hmem hid]

theorem LogInvariant.logIntegrity {s : Store} (P : Platform) (h : LogInvariant s) :
    LogIntegrity P s := by
  refine ⟨h.numbered, h.distinct, h.devices, ?_⟩
  intro logged hmem now uuid userId
  have hget : s.getOpById logged.payload.opId = some logged := by
    rw [h.payload logged hmem]
    exact h.getOpById hmem
  simp only [process, hget]

/-! ### One call -/

/-- A device passes the checks as the next one of its sequence, or the op is one
that a room makes. -/
theorem device_of_checkDevice {op : FileOp} {userId : Option String} {s : Store}
    (h : checkDevice op userId s = none) :
    (opDevice op s = none ∧ CollabId op.deviceId) ∨
    ∃ device, opDevice op s = some device ∧ s.getDevice op.deviceId = some device ∧
      device.vaultId = op.vaultId ∧ op.deviceSeq = device.lastDeviceSeq + 1 := by
  unfold checkDevice at h
  unfold opDevice
  split at h
  · next hcollab =>
    refine Or.inl ⟨if_pos hcollab, op.fileId, ?_⟩
    simpa [syntheticCollab] using hcollab
  next hcollab =>
  rw [if_neg hcollab]
  cases hget : s.getDevice op.deviceId with
  | none => simp [hget] at h
  | some device =>
    simp only [hget] at h
    -- the remaining tests, in the order of the source
    split at h
    · simp at h
    next hvault =>
    split at h
    · simp at h
    split at h
    · simp at h
    split at h
    · split at h <;> simp at h
    next hlow =>
    split at h
    · simp at h
    next hhigh => exact Or.inr ⟨device, rfl, rfl, not_not.mp hvault, by omega⟩

/-- Calls that log nothing. -/
theorem LogInvariant.of_frame {s t : Store} (h : LogInvariant s) (hframe : Frame s t) :
    LogInvariant t := by
  have hvault : ∀ vaultId, vaultOps t vaultId = vaultOps s vaultId := by
    intro vaultId
    rw [vaultOps, hframe.ops, vaultOps]
  have hdevice : ∀ deviceId, deviceOps t deviceId = deviceOps s deviceId := by
    intro deviceId
    rw [deviceOps, hframe.ops, deviceOps]
  constructor
  · intro vaultId
    constructor
    · rw [hvault]
      exact (h.numbered vaultId).seqs
    · rw [hvault, hframe.nextSeq]
      exact (h.numbered vaultId).nextSeq
  · rw [hframe.ops]
    exact h.distinct
  · rw [hframe.ops]
    exact h.payload
  · rw [hframe.devices]
    intro device hmem
    obtain ⟨h₁, h₂, h₃⟩ := h.devices device hmem
    rw [← hdevice] at h₁ h₂ h₃
    exact ⟨h₁, h₂, h₃⟩
  · rw [hframe.devices]
    exact h.ordinary

theorem mem_vaultOps {s : Store} {vaultId : String} {op : StoredOp} :
    op ∈ vaultOps s vaultId ↔ op ∈ s.ops ∧ op.vaultId = vaultId := by
  simp [vaultOps]

theorem mem_deviceOps {s : Store} {deviceId : String} {op : StoredOp} :
    op ∈ deviceOps s deviceId ↔ op ∈ s.ops ∧ op.deviceId = deviceId := by
  simp [deviceOps]

/-- The sequences of a numbered log are below the next one. -/
theorem LogNumbered.seq_lt {vaultId : String} {s : Store} (h : LogNumbered vaultId s)
    {op : StoredOp} (hop : op ∈ vaultOps s vaultId) : op.seq < s.nextSeq vaultId := by
  have hmem : op.seq ∈ (vaultOps s vaultId).map StoredOp.seq := List.mem_map_of_mem hop
  rw [h.seqs, List.mem_range'_1] at hmem
  have hnext := h.nextSeq
  omega

/-- The log of a device after one more op: longer by the op if it is its own. -/
theorem deviceOps_append {s t : Store} {op : StoredOp} (hops : t.ops = s.ops ++ [op])
    (deviceId : String) :
    deviceOps t deviceId
      = if op.deviceId = deviceId then deviceOps s deviceId ++ [op]
        else deviceOps s deviceId := by
  rw [deviceOps, hops, List.filter_append, deviceOps]
  by_cases h : op.deviceId = deviceId <;> simp [h]

/-- The next op of a device extends its log. -/
theorem DeviceLogged.extend {s t : Store} {device : StoredDevice} {op : StoredOp}
    (h : DeviceLogged s device) (hops : t.ops = s.ops ++ [op])
    (hid : op.deviceId = device.deviceId) (hvault : op.vaultId = device.vaultId)
    (hnext : op.deviceSeq = device.lastDeviceSeq + 1)
    (hlast : ∀ earlier ∈ deviceOps s device.deviceId, earlier.seq < op.seq)
    {moved : StoredDevice} (hmoved : moved.deviceId = device.deviceId)
    (hmovedVault : moved.vaultId = device.vaultId)
    (hmovedSeq : moved.lastDeviceSeq = op.deviceSeq) : DeviceLogged t moved := by
  have hdevice : deviceOps t moved.deviceId = deviceOps s device.deviceId ++ [op] := by
    rw [deviceOps_append hops, hmoved, if_pos hid]
  constructor
  · intro logged hmem
    rw [hdevice, List.mem_append, List.mem_singleton] at hmem
    rw [hmovedVault]
    rcases hmem with hmem | rfl
    · exact h.vaultId logged hmem
    · exact hvault
  · rw [hdevice, List.map_append, h.deviceSeqs, hmovedSeq, hnext, List.range'_concat,
      List.map_singleton, hnext, Nat.one_mul, Nat.add_comm 1]
  · rw [hdevice, List.pairwise_append]
    refine ⟨h.increasing, List.pairwise_singleton _ _, ?_⟩
    intro earlier hearlier last hlast'
    rw [List.mem_singleton] at hlast'
    rw [hlast']
    exact hlast earlier hearlier

/-- The log of a device that an op is not of. -/
theorem DeviceLogged.other {s t : Store} {device : StoredDevice} {op : StoredOp}
    (h : DeviceLogged s device) (hops : t.ops = s.ops ++ [op])
    (hid : op.deviceId ≠ device.deviceId) : DeviceLogged t device := by
  have hdevice : deviceOps t device.deviceId = deviceOps s device.deviceId := by
    rw [deviceOps_append hops, if_neg hid]
  obtain ⟨h₁, h₂, h₃⟩ := h
  rw [← hdevice] at h₁ h₂ h₃
  exact ⟨h₁, h₂, h₃⟩

/-- **Every call keeps the invariant.** -/
theorem logInvariant_processStep {P : Platform} {s : Store} (h : LogInvariant s)
    (call : ProcessCall) : LogInvariant (processStep P s call) := by
  obtain ⟨now, uuid, op, userId⟩ := call
  cases ha : accepted P now uuid op userId s with
  | none => exact h.of_frame (frame_of_not_accepted ha).1
  | some applied =>
    have hspec := accepted_spec ha
    have hframe := hspec.frame
    have hnumbered : ∀ vaultId, LogNumbered vaultId (processStep P s ⟨now, uuid, op, userId⟩) :=
      fun vaultId => logNumbered_serverStep (P := P) (h.numbered vaultId)
        (.process now uuid op userId)
    -- the three tables after the commit
    have hstep : processStep P s ⟨now, uuid, op, userId⟩
        = (commit now op (opDevice op s) applied).2 := by
      rw [processStep, process_of_accepted ha]
    have hops : (processStep P s ⟨now, uuid, op, userId⟩).ops
        = s.ops ++ [loggedOp now op applied (s.nextSeq op.vaultId)] := by
      rw [hstep, commit_ops, hframe.ops, hframe.nextSeq]
    have hfresh : ∀ logged ∈ s.ops, logged.opId ≠ op.opId :=
      Store.getOpById_eq_none_iff.mp hspec.fresh
    have hdevices := commit_devices now op (opDevice op s) applied
    rw [← hstep] at hdevices
    have hrows : (∀ device ∈ (processStep P s ⟨now, uuid, op, userId⟩).devices.rows,
        DeviceLogged (processStep P s ⟨now, uuid, op, userId⟩) device) ∧
        ∀ device ∈ (processStep P s ⟨now, uuid, op, userId⟩).devices.rows,
          ¬ CollabId device.deviceId := by
      rcases device_of_checkDevice hspec.device with
        ⟨hnone, hcollab⟩ | ⟨device, hsome, hget, hvault, hseq⟩
      · -- an op of a room: no row moves, and no registered device has its id
        rw [hnone] at hdevices
        rw [hdevices, hframe.devices]
        refine ⟨fun device hmem => (h.devices device hmem).other hops ?_, h.ordinary⟩
        intro hid
        apply h.ordinary device hmem
        rw [← hid]
        exact hcollab
      · -- the op of a registered device: its row moves to the op's sequence
        rw [hsome, hframe.devices] at hdevices
        have hid : device.deviceId = op.deviceId := Table.key_of_get? hget
        have hmem : device ∈ s.devices.rows := Table.mem_of_get? hget
        have hlast : ∀ earlier ∈ deviceOps s device.deviceId,
            earlier.seq < s.nextSeq op.vaultId := by
          intro earlier hearlier
          apply (h.numbered op.vaultId).seq_lt
          rw [mem_vaultOps]
          refine ⟨(mem_deviceOps.mp hearlier).1, ?_⟩
          rw [(h.devices device hmem).vaultId earlier hearlier, hvault]
        rw [hdevices]
        constructor
        · intro row hrow
          rcases Table.mem_set_iff.mp hrow with rfl | ⟨hrow, hne⟩
          · exact (h.devices device hmem).extend hops hid.symm hvault.symm hseq hlast rfl rfl rfl
          · refine (h.devices row hrow).other hops fun hid' => hne ?_
            exact hid'.symm.trans hid.symm
        · intro row hrow
          rcases Table.mem_set_iff.mp hrow with rfl | ⟨hrow, -⟩
          · exact h.ordinary device hmem
          · exact h.ordinary row hrow
    refine ⟨hnumbered, ?_, ?_, hrows.1, hrows.2⟩
    · rw [hops, List.map_append, List.map_singleton]
      refine List.Nodup.append h.distinct (List.nodup_singleton _) ?_
      intro opId hmem hnew
      rw [List.mem_singleton] at hnew
      obtain ⟨logged, hlogged, hid⟩ := List.mem_map.mp hmem
      exact hfresh logged hlogged (hid.trans hnew)
    · intro logged hmem
      rw [hops, List.mem_append, List.mem_singleton] at hmem
      rcases hmem with hmem | rfl
      · exact h.payload logged hmem
      · rfl

/-- A call only adds to the log. -/
theorem ops_prefix_processStep (P : Platform) (s : Store) (call : ProcessCall) :
    s.ops <+: (processStep P s call).ops :=
  ⟨(loggedEntry P s call.event).toList, (ops_serverStep P s call.event).symm⟩

/-! ### Runs -/

/-- **The log keeps its integrity.**  In every state of a run of calls from a store
before the first op, and no call takes an entry out of the log again. -/
theorem logIntegrity_run {P : Platform} {s : Store} (h : FreshLog s) (calls : List ProcessCall) :
    Run.Throughout (processStep P) (LogIntegrity P) s calls ∧
    Run.EachStep (processStep P) (fun s call => s.ops <+: (processStep P s call).ops) s calls := by
  have hinv : Run.Throughout (processStep P) LogInvariant s calls :=
    Run.throughout_of_step (I := LogInvariant)
      (fun _ call hs => logInvariant_processStep hs call) h.logInvariant calls
  exact ⟨hinv.mono fun _ hs => hs.logIntegrity P,
    Run.eachStep_of_forall (ops_prefix_processStep P) s calls⟩

/-- The store of the sample vault is one before the first op. -/
theorem freshLog_sampleStore : FreshLog sampleStore := by
  have hids : ∀ device ∈ sampleStore.devices.rows,
      device.lastDeviceSeq = 0 ∧ device.deviceId.toList.head? = some 'd' := by decide
  refine ⟨rfl, rfl, fun device hmem => (hids device hmem).1, ?_⟩
  rintro device hmem ⟨fileId, hid⟩
  have hhead := (hids device hmem).2
  simp [hid] at hhead

/-- A create, the same call again, and an update under a taken sequence. -/
def sampleCalls : List ProcessCall :=
  [{ now := 0, uuid := sampleUuid, userId := some "u",
     op := sampleContentOp .create "o1" "d1" "f" 1 (some "a.md") (sampleVV "d1" 1) "one" },
   { now := 1, uuid := sampleUuid, userId := some "u",
     op := sampleContentOp .create "o1" "d1" "f" 1 (some "a.md") (sampleVV "d1" 1) "one" },
   { now := 2, uuid := sampleUuid, userId := some "u",
     op := sampleContentOp .update "o2" "d1" "f" 1 none (sampleVV "d1" 2) "two" }]

theorem logIntegrity_sampleCalls :
    Run.Throughout (processStep samplePlatform) (LogIntegrity samplePlatform) sampleStore
      sampleCalls ∧
    Run.EachStep (processStep samplePlatform)
      (fun s call => s.ops <+: (processStep samplePlatform s call).ops) sampleStore sampleCalls :=
  logIntegrity_run freshLog_sampleStore sampleCalls

end ObsidianSync
