import ObsidianSync.Lib.Run
import ObsidianSync.Shared.Path
import ObsidianSync.Shared.Pretty

/-!
# The file of the local index

The index is kept in a file of the plugin.  A save writes the text of a snapshot to a
file beside it and renames that; where the adapter has no `rename`, or has one that
does not replace a file, the save writes the file itself.  A crash may come between two
calls of the adapter, or within a write, of which a part is then left.

## Main definitions

* `LocalIndexSnapshot` — the index as an object, with `stringify` and `load`.
* `IndexAdapter`, `callAdapter` — the calls of a save, one by one.
* `crashedSave` — a save up to a crash.
* `CrashSafe` — a load after crashed saves gives one of the snapshots.

## Main results

* `load_stringify` — what was written is loaded.
* `crashSafe_iff_replaces` — saves are safe exactly if the adapter's `rename` replaces
  the file.
-/

namespace ObsidianSync

/-! ### Snapshots -/

/-- The state of the device, by the fields of the object; a field that may be `undefined` is
optional. -/
structure SavedDevice where
  appliedSeq : Json
  deviceId : Option Json
  vaultId : Json
  nextDeviceSeq : Json
  outbox : Json
  manifestCursor : Option Json
  manifestWatermarkSeq : Option Json
  downloadedHashes : Json

/-- The index as it is in its file. -/
structure LocalIndexSnapshot where
  files : List Json
  device : SavedDevice
  conflicts : Json

/-- A field that is written unless it is `undefined`. -/
def optionalField (name : String) (value : Option Json) : List (String × Json) :=
  (value.map fun value => (name, value)).toList

/-- The state of the device as JSON. -/
def SavedDevice.toJson (device : SavedDevice) : Json :=
  .obj (("appliedSeq", device.appliedSeq) :: (optionalField "deviceId" device.deviceId ++
    ("vaultId", device.vaultId) :: ("nextDeviceSeq", device.nextDeviceSeq) ::
    ("outbox", device.outbox) :: (optionalField "manifestCursor" device.manifestCursor ++
    (optionalField "manifestWatermarkSeq" device.manifestWatermarkSeq ++
    [("downloadedHashes", device.downloadedHashes)]))))

/-- The index as JSON. -/
def LocalIndexSnapshot.toJson (snapshot : LocalIndexSnapshot) : Json :=
  .obj [("schemaVersion", .num "1"), ("files", .arr snapshot.files),
    ("device", snapshot.device.toJson), ("conflicts", snapshot.conflicts)]

/-- `JSON.stringify(this.snapshot, null, 2)` and a line feed. -/
def LocalIndexSnapshot.stringify (snapshot : LocalIndexSnapshot) : List Char :=
  snapshot.toJson.pretty 0 ++ ['\n']

/-! ### Loading -/

/-- What `load` throws. -/
inductive LoadError
  /-- The `SyntaxError` of `JSON.parse`. -/
  | notJson
  /-- `Unsupported local index schema`. -/
  | unsupportedSchema
  /-- The `TypeError` of a field of what is no object. -/
  | noObject
  deriving DecidableEq, Repr

/-- `value ?? fallback`. -/
def coalesce (value : Option Json) (fallback : Json) : Json :=
  match value with
  | none | some .null => fallback
  | some value => value

/-- `!value`. -/
def isFalsy : Option Json → Bool
  | none | some .null | some (.bool false) => true
  | some (.num literal) =>
    (literal.toList.takeWhile fun c => c ≠ 'e' && c ≠ 'E').all fun c =>
      c = '0' || c = '-' || c = '.'
  | some (.str text) => text = ""
  | _ => false

variable (P : Platform)

/-- `{ ...entry, pathNormalized: entry.pathNormalized ?? caseFoldPath(entry.path) }`. -/
def loadEntry (entry : Json) : Except LoadError Json :=
  match entry with
  | .obj fields =>
    match entry.field "pathNormalized" with
    | none | some .null =>
      match entry.field "path" with
      | some (.str path) =>
        .ok (.obj (fields.filter (fun field => field.1 ≠ "pathNormalized") ++
          [("pathNormalized", .str (caseFoldPath P path))]))
      | _ => .error .noObject
    | some _ => .ok entry
  | _ => .error .noObject

/-- The snapshot that a value of the file stands for. -/
def loadParsed (parsed : Json) : Except LoadError LocalIndexSnapshot :=
  match parsed with
  | .null => .error .noObject
  | _ =>
    match parsed.field "schemaVersion", parsed.field "files" with
    | some (.num "1"), some (.arr files) =>
      if isFalsy (parsed.field "device") then .error .unsupportedSchema
      else
        let device := coalesce (parsed.field "device") .null
        (files.mapM (loadEntry P)).map fun files =>
          { files
            device :=
              { appliedSeq := coalesce (device.field "appliedSeq") (.num "0")
                deviceId := device.field "deviceId"
                vaultId := coalesce (device.field "vaultId") .null
                nextDeviceSeq := coalesce (device.field "nextDeviceSeq") (.num "1")
                outbox := coalesce (device.field "outbox") (.arr [])
                manifestCursor := device.field "manifestCursor"
                manifestWatermarkSeq := device.field "manifestWatermarkSeq"
                downloadedHashes := coalesce (device.field "downloadedHashes") (.arr []) }
            conflicts := coalesce (parsed.field "conflicts") (.arr []) }
    | _, _ => .error .unsupportedSchema

/-- The file of the index, and the one beside it that a save writes first. -/
structure IndexFiles where
  main : Option (List Char)
  next : Option (List Char)
  deriving DecidableEq, Repr

/-- `load`, in a store that holds a snapshot. -/
def load (snapshot : LocalIndexSnapshot) (files : IndexFiles) :
    Except LoadError LocalIndexSnapshot :=
  match files.main with
  | none => .ok snapshot
  | some raw =>
    match jsonParse (String.ofList raw) with
    | none => .error .notJson
    | some parsed => loadParsed P parsed

/-! ### What was written is loaded -/

/-- What the types of a snapshot promise: entries have a folded path, and there are no nulls but
where they may be. -/
structure LocalIndexSnapshot.WellTyped (snapshot : LocalIndexSnapshot) : Prop where
  files : ∀ entry ∈ snapshot.files, ∃ fields path, entry = .obj fields ∧
    entry.field "pathNormalized" = some (.str path)
  appliedSeq : snapshot.device.appliedSeq ≠ .null
  nextDeviceSeq : snapshot.device.nextDeviceSeq ≠ .null
  outbox : snapshot.device.outbox ≠ .null
  downloadedHashes : snapshot.device.downloadedHashes ≠ .null
  conflicts : snapshot.conflicts ≠ .null
  readable : snapshot.toJson.Readable

/-- A snapshot of its type. -/
abbrev IndexSnapshot := { snapshot : LocalIndexSnapshot // snapshot.WellTyped }

theorem coalesce_of_ne {value : Json} (h : value ≠ .null) (fallback : Json) :
    coalesce (some value) fallback = value := by
  unfold coalesce
  split
  · next heq => cases heq
  · next heq => exact absurd (Option.some.inj heq) h
  · next heq => exact (Option.some.inj heq).symm

theorem mapM_loadEntry {entries : List Json}
    (h : ∀ entry ∈ entries, ∃ fields path, entry = .obj fields ∧
      entry.field "pathNormalized" = some (.str path)) :
    entries.mapM (loadEntry P) = .ok entries := by
  induction entries with
  | nil => rfl
  | cons entry entries ih =>
    obtain ⟨fields, path, rfl, hpath⟩ := h _ List.mem_cons_self
    have hentry : loadEntry P (.obj fields) = .ok (.obj fields) := by
      rw [loadEntry, hpath]
    rw [List.mapM_cons, hentry, ih fun other hother => h other (List.mem_cons_of_mem _ hother)]
    rfl

/-- A field is found behind those of other names. -/
theorem field_obj_append (front back : List (String × Json)) (key : String) :
    (Json.obj (front ++ back)).field key =
      ((Json.obj back).field key).or ((Json.obj front).field key) := by
  simp only [Json.field, List.reverse_append, List.find?_append]
  cases back.reverse.find? fun field => field.1 = key <;> rfl

theorem field_obj_cons (name : String) (value : Json) (fields : List (String × Json))
    (key : String) :
    (Json.obj ((name, value) :: fields)).field key =
      ((Json.obj fields).field key).or (if name = key then some value else none) := by
  rw [← List.singleton_append, field_obj_append]
  congr 1
  by_cases h : name = key <;> simp [Json.field, h]

theorem field_obj_nil (key : String) : (Json.obj []).field key = none := rfl

theorem field_optionalField (name : String) (value : Option Json) (key : String) :
    (Json.obj (optionalField name value)).field key = if name = key then value else none := by
  cases value with
  | none => simp [optionalField, field_obj_nil]
  | some value =>
    show (Json.obj [(name, value)]).field key = _
    rw [field_obj_cons, field_obj_nil]
    rfl

/-- The fields of the device are found under their names. -/
theorem field_toJson (device : SavedDevice) :
    device.toJson.field "appliedSeq" = some device.appliedSeq ∧
      device.toJson.field "deviceId" = device.deviceId ∧
      device.toJson.field "vaultId" = some device.vaultId ∧
      device.toJson.field "nextDeviceSeq" = some device.nextDeviceSeq ∧
      device.toJson.field "outbox" = some device.outbox ∧
      device.toJson.field "manifestCursor" = device.manifestCursor ∧
      device.toJson.field "manifestWatermarkSeq" = device.manifestWatermarkSeq ∧
      device.toJson.field "downloadedHashes" = some device.downloadedHashes := by
  simp [SavedDevice.toJson, field_obj_cons, field_obj_append, field_obj_nil, field_optionalField]

theorem loadParsed_toJson {snapshot : LocalIndexSnapshot} (h : snapshot.WellTyped) :
    loadParsed P snapshot.toJson = .ok snapshot := by
  obtain ⟨happlied, hid, hvault, hnext, houtbox, hcursor, hwatermark, hhashes⟩ :=
    field_toJson snapshot.device
  have hversion : snapshot.toJson.field "schemaVersion" = some (.num "1") := by
    simp [LocalIndexSnapshot.toJson, field_obj_cons, field_obj_nil]
  have hfiles : snapshot.toJson.field "files" = some (.arr snapshot.files) := by
    simp [LocalIndexSnapshot.toJson, field_obj_cons, field_obj_nil]
  have hdevice : snapshot.toJson.field "device" = some snapshot.device.toJson := by
    simp [LocalIndexSnapshot.toJson, field_obj_cons, field_obj_nil]
  have hconflicts : snapshot.toJson.field "conflicts" = some snapshot.conflicts := by
    simp [LocalIndexSnapshot.toJson, field_obj_cons, field_obj_nil]
  have hfalsy : isFalsy (some snapshot.device.toJson) = false := rfl
  have hobject : coalesce (some snapshot.device.toJson) .null = snapshot.device.toJson := rfl
  have hvaultId : coalesce (some snapshot.device.vaultId) .null = snapshot.device.vaultId := by
    cases snapshot.device.vaultId <;> rfl
  rw [loadParsed]
  · simp only [hversion, hfiles, hdevice, hconflicts, hfalsy, Bool.false_eq_true, if_false,
      hobject, mapM_loadEntry P h.files, happlied, hid, hvault, hnext, houtbox, hcursor,
      hwatermark, hhashes, hvaultId, coalesce_of_ne h.appliedSeq, coalesce_of_ne h.nextDeviceSeq,
      coalesce_of_ne h.outbox, coalesce_of_ne h.downloadedHashes, coalesce_of_ne h.conflicts]
    rfl
  · exact fun hnull => by cases hnull

/-- **What was written is loaded.** -/
theorem load_stringify (fresh : LocalIndexSnapshot) (snapshot : IndexSnapshot)
    (next : Option (List Char)) :
    load P fresh { main := some snapshot.1.stringify, next } = .ok snapshot.1 := by
  have hparse := jsonParse_pretty snapshot.2.readable
  rw [load]
  dsimp only
  rw [LocalIndexSnapshot.stringify, hparse]
  exact loadParsed_toJson P snapshot.2

/-! ### Saving -/

/-- What `adapter.rename` does where the target exists. -/
inductive OnExisting
  | replaces
  /-- It throws `Destination file already exists!`, with the source removed or not. -/
  | refuses (dropsSource : Bool)
  deriving DecidableEq, Repr

/-- Which optional calls the adapter has. -/
structure IndexAdapter where
  rename : Option OnExisting
  remove : Bool
  deriving DecidableEq, Repr

/-- The call that a save comes to next. -/
inductive SavePoint
  /-- `adapter.write(tmp, text)`. -/
  | writeNext
  /-- `adapter.rename(tmp, path)`. -/
  | rename (onExisting : OnExisting)
  /-- `adapter.write(path, text)`. -/
  | writeMain
  /-- `adapter.remove(tmp)`. -/
  | removeNext
  deriving DecidableEq, Repr

/-- Where a save goes on after a call. -/
inductive SaveProgress
  | goesOn (point : SavePoint)
  | done
  /-- The error of a `rename` whose source is missing. -/
  | throws
  deriving DecidableEq, Repr

/-- A call of a save, which takes effect at once. -/
def callAdapter (adapter : IndexAdapter) (text : List Char) (files : IndexFiles) :
    SavePoint → IndexFiles × SaveProgress
  | .writeNext =>
    ({ files with next := some text },
      .goesOn (match adapter.rename with
        | some onExisting => .rename onExisting
        | none => .writeMain))
  | .rename onExisting =>
    match files.next, files.main, onExisting with
    | none, _, _ => (files, .throws)
    | some _, some _, .refuses dropsSource =>
      ({ files with next := if dropsSource then none else files.next }, .goesOn .writeMain)
    | some source, _, _ => ({ main := some source, next := none }, .done)
  | .writeMain =>
    ({ files with main := some text }, if adapter.remove then .goesOn .removeNext else .done)
  -- that the file is missing is no error
  | .removeNext => ({ files with next := none }, .done)

/-! ### Crashes -/

/-- A crash after some calls of a save, and within the next one if that is a write, of which it
leaves so many characters. -/
structure Crash where
  calls : ℕ
  left : Option ℕ
  deriving DecidableEq, Repr

/-- What a crash within a call leaves. -/
def crashWithin (text : List Char) (files : IndexFiles) (left : Option ℕ) :
    SavePoint → IndexFiles
  | .writeNext => { files with next := left.elim files.next fun left => some (text.take left) }
  | .writeMain => { files with main := left.elim files.main fun left => some (text.take left) }
  | _ => files

/-- The files where a save that is at a call crashes. -/
def crashedFrom (adapter : IndexAdapter) (text : List Char) (left : Option ℕ) :
    ℕ → SavePoint → IndexFiles → IndexFiles
  | 0, point, files => crashWithin text files left point
  | calls + 1, point, files =>
    match callAdapter adapter text files point with
    | (files, .goesOn point) => crashedFrom adapter text left calls point files
    | (files, _) => files

/-- The files where a save of a snapshot crashes. -/
def crashedSave (adapter : IndexAdapter) (files : IndexFiles) (save : IndexSnapshot × Crash) :
    IndexFiles :=
  crashedFrom adapter save.1.1.stringify save.2.left save.2.calls .writeNext files

/-- After crashed saves in a row, a load gives the old snapshot or one of the new ones. -/
def CrashSafe (adapter : IndexAdapter) : Prop :=
  ∀ (fresh : LocalIndexSnapshot) (old : IndexSnapshot) (next : Option (List Char))
    (saves : List (IndexSnapshot × Crash)),
      ∃ snapshot ∈ old :: saves.map Prod.fst,
        load P fresh (Run.final (crashedSave adapter) { main := some old.1.stringify, next } saves)
          = .ok snapshot.1

/-- **A crash leaves the old file or the whole new one**, if `rename` replaces. -/
theorem main_crashedSave {adapter : IndexAdapter} (h : adapter.rename = some .replaces)
    (files : IndexFiles) (save : IndexSnapshot × Crash) :
    (crashedSave adapter files save).main = files.main ∨
      (crashedSave adapter files save).main = some save.1.1.stringify := by
  obtain ⟨snapshot, calls, left⟩ := save
  obtain ⟨main, next⟩ := files
  unfold crashedSave
  cases calls with
  | zero => exact Or.inl rfl
  | succ calls =>
    have hwrite : callAdapter adapter snapshot.1.stringify ⟨main, next⟩ .writeNext =
        (⟨main, some snapshot.1.stringify⟩, .goesOn (.rename .replaces)) := by
      rw [callAdapter, h]
    dsimp only
    rw [crashedFrom, hwrite]
    cases calls with
    | zero => exact Or.inl rfl
    | succ calls => cases main <;> exact Or.inr rfl

theorem crashSafe_of_replaces {adapter : IndexAdapter} (h : adapter.rename = some .replaces) :
    CrashSafe P adapter := by
  intro fresh old next saves
  have hmain : ∀ (files : IndexFiles) (known : List IndexSnapshot),
      (∃ snapshot ∈ known, files.main = some snapshot.1.stringify) →
        ∃ snapshot ∈ known ++ saves.map Prod.fst,
          (Run.final (crashedSave adapter) files saves).main = some snapshot.1.stringify := by
    induction saves with
    | nil =>
      intro files known h
      simpa using h
    | cons save saves ih =>
      rintro files known ⟨snapshot, hknown, hfile⟩
      have hsave := ih (crashedSave adapter files save) (known ++ [save.1]) (by
        rcases main_crashedSave h files save with hold | hnew
        · exact ⟨snapshot, List.mem_append_left _ hknown, hold.trans hfile⟩
        · exact ⟨save.1, by simp, hnew⟩)
      simpa using hsave
  obtain ⟨snapshot, hmem, hfile⟩ := hmain { main := some old.1.stringify, next } [old]
    ⟨old, List.mem_cons_self, rfl⟩
  refine ⟨snapshot, hmem, ?_⟩
  have hload := load_stringify P fresh snapshot
    (Run.final (crashedSave adapter) { main := some old.1.stringify, next } saves).next
  rwa [← hfile] at hload

/-- `defaultSnapshot`, the snapshot of a new store. -/
def defaultSnapshot (deviceId : String) (vaultId : Option String) : LocalIndexSnapshot :=
  { files := []
    device :=
      { appliedSeq := .num "0"
        deviceId := some (.str deviceId)
        vaultId := vaultId.elim .null .str
        nextDeviceSeq := .num "1"
        outbox := .arr []
        manifestCursor := some .null
        manifestWatermarkSeq := some .null
        downloadedHashes := .arr [] }
    conflicts := .arr [] }

theorem isLiteral_one : IsLiteral "1" :=
  @isLiteral_of_digits "1" '1' [] (by decide) (by decide) (by decide)

theorem wellTyped_defaultSnapshot (deviceId : String) (vaultId : Option String) :
    (defaultSnapshot deviceId vaultId).WellTyped where
  files _ h := absurd h List.not_mem_nil
  appliedSeq h := by cases h
  nextDeviceSeq h := by cases h
  outbox h := by cases h
  downloadedHashes h := by cases h
  conflicts h := by cases h
  readable := by
    have hvault : (vaultId.elim Json.null Json.str).Readable := by cases vaultId <;> trivial
    simp only [LocalIndexSnapshot.toJson, defaultSnapshot, SavedDevice.toJson, optionalField,
      Option.map_some, Option.toList_some, List.cons_append, List.nil_append, Json.Readable,
      ReadableFields, ReadableItems, hvault, isLiteral_zero, isLiteral_one, and_self]

/-- A snapshot of a new store. -/
def sampleIndexSnapshot : IndexSnapshot :=
  ⟨defaultSnapshot "d1" none, wellTyped_defaultSnapshot _ _⟩

theorem jsonParse_empty : jsonParse (String.ofList []) = none := by decide +kernel

/-- A write of the file itself may leave nothing of it. -/
theorem main_crashedSave_of_not_replaces {adapter : IndexAdapter}
    (h : adapter.rename ≠ some .replaces) (text : List Char) (save : IndexSnapshot) :
    ∃ calls, (crashedSave adapter { main := some text, next := none }
      (save, ⟨calls, some 0⟩)).main = some [] := by
  obtain ⟨rename, remove⟩ := adapter
  match rename, h with
  | none, _ => exact ⟨1, rfl⟩
  | some (.refuses dropsSource), _ => exact ⟨2, rfl⟩
  | some .replaces, h => exact absurd rfl h

/-- **Saves are crash safe exactly if `rename` replaces the file.** -/
theorem crashSafe_iff_replaces (adapter : IndexAdapter) :
    CrashSafe P adapter ↔ adapter.rename = some .replaces := by
  refine ⟨fun hsafe => ?_, crashSafe_of_replaces P⟩
  by_contra hrename
  obtain ⟨calls, hempty⟩ := main_crashedSave_of_not_replaces hrename
    sampleIndexSnapshot.1.stringify sampleIndexSnapshot
  obtain ⟨snapshot, -, hload⟩ := hsafe sampleIndexSnapshot.1 sampleIndexSnapshot none
    [(sampleIndexSnapshot, ⟨calls, some 0⟩)]
  rw [Run.final_cons, Run.final_nil, load, hempty] at hload
  dsimp only at hload
  rw [jsonParse_empty] at hload
  cases hload

/-- The adapter of the app, whose `rename` refuses: a crash within the second write leaves a part of
the file, which is no JSON. -/
theorem not_crashSafe_refuses : ¬ CrashSafe samplePlatform ⟨some (.refuses false), true⟩ := by
  intro hsafe
  obtain ⟨snapshot, -, hload⟩ := hsafe sampleIndexSnapshot.1 sampleIndexSnapshot none
    [(sampleIndexSnapshot, ⟨2, some 0⟩)]
  have hempty : (crashedSave ⟨some (.refuses false), true⟩
      { main := some sampleIndexSnapshot.1.stringify, next := none }
      (sampleIndexSnapshot, ⟨2, some 0⟩)).main = some [] := rfl
  rw [Run.final_cons, Run.final_nil, load, hempty] at hload
  dsimp only at hload
  rw [jsonParse_empty] at hload
  cases hload

end ObsidianSync
