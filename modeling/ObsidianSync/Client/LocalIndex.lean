import ObsidianSync.Client.Outbox

/-!
# The local index and the vault

The index remembers, for each file id, the path, hash and vector the client last
applied; the vault holds the files themselves.

## Main definitions

* `FileIndexEntry`, `DeviceState`, `LocalIndex` — the index, and its operations.
* `Vault` — the files on disk by path.
* `isTextPath`, `classifyFileType`, `categorizeConfigPath` — what a path says.
-/

namespace ObsidianSync

/-! ### The index -/

/-- What the index knows of a file. -/
structure FileIndexEntry where
  fileId : String
  path : String
  pathNormalized : String
  type : FileType
  contentHash : Option String
  size : ℕ
  appliedContentVV : VersionVector
  pathClock : Option PathClock := none
  isDir : Bool
  mtime : Time
  deleted : Bool := false
  deriving DecidableEq

/-- What the index knows of its device. -/
structure DeviceState where
  appliedSeq : ℕ := 0
  deviceId : String
  vaultId : Option String
  nextDeviceSeq : ℕ := 1
  outbox : List OutboxEntry := []
  downloadedHashes : List String := []
  deriving DecidableEq

/-- The index of a vault on a device. -/
structure LocalIndex where
  files : Table FileIndexEntry.fileId := Table.empty
  device : DeviceState
  conflicts : List String := []
  deriving DecidableEq

namespace LocalIndex

/-- Write an entry.  Its folded path is the one it carries. -/
def upsertFile (index : LocalIndex) (entry : FileIndexEntry) : LocalIndex :=
  { index with files := index.files.set entry }

/-- The first entry at the path that is not deleted. -/
def byPath (index : LocalIndex) (path : String) : Option FileIndexEntry :=
  index.files.rows.find? fun entry => entry.path = path ∧ entry.deleted = false

/-- The entry of a file. -/
def byFileId (index : LocalIndex) (fileId : String) : Option FileIndexEntry :=
  index.files.get? fileId

/-- The entry of a file is marked as deleted. -/
def markDeleted (index : LocalIndex) (fileId : String) : LocalIndex :=
  match index.byFileId fileId with
  | none => index
  | some entry => { index with files := index.files.set { entry with deleted := true } }

/-- The applied sequence moves on, and never back. -/
def setAppliedSeq (index : LocalIndex) (seq : ℕ) : LocalIndex :=
  { index with device.appliedSeq := max index.device.appliedSeq seq }

/-- The outbox is written into the index. -/
def setOutbox (index : LocalIndex) (outbox : List OutboxEntry) (nextDeviceSeq : ℕ) : LocalIndex :=
  { index with device.outbox := outbox, device.nextDeviceSeq := nextDeviceSeq }

/-- A conflict is added, once. -/
def addConflict (index : LocalIndex) (conflictId : String) : LocalIndex :=
  if index.conflicts.contains conflictId then index
  else { index with conflicts := index.conflicts ++ [conflictId] }

/-- A conflict is removed. -/
def removeConflict (index : LocalIndex) (conflictId : String) : LocalIndex :=
  { index with conflicts := index.conflicts.filter fun id => id ≠ conflictId }

/-- Add a hash to the downloaded ones, as `[...new Set([...hashes, hash])]`. -/
def addDownloaded (index : LocalIndex) (hash : String) : LocalIndex :=
  { index with device.downloadedHashes :=
      if index.device.downloadedHashes.contains hash then index.device.downloadedHashes
      else index.device.downloadedHashes ++ [hash] }

@[simp] theorem appliedSeq_setAppliedSeq (index : LocalIndex) (seq : ℕ) :
    (index.setAppliedSeq seq).device.appliedSeq = max index.device.appliedSeq seq := rfl

@[simp] theorem files_setAppliedSeq (index : LocalIndex) (seq : ℕ) :
    (index.setAppliedSeq seq).files = index.files := rfl

@[simp] theorem appliedSeq_upsertFile (index : LocalIndex) (entry : FileIndexEntry) :
    (index.upsertFile entry).device.appliedSeq = index.device.appliedSeq := rfl

@[simp] theorem appliedSeq_setOutbox (index : LocalIndex) (outbox : List OutboxEntry) (n : ℕ) :
    (index.setOutbox outbox n).device.appliedSeq = index.device.appliedSeq := rfl

@[simp] theorem files_setOutbox (index : LocalIndex) (outbox : List OutboxEntry) (n : ℕ) :
    (index.setOutbox outbox n).files = index.files := rfl

@[simp] theorem appliedSeq_markDeleted (index : LocalIndex) (fileId : String) :
    (index.markDeleted fileId).device.appliedSeq = index.device.appliedSeq := by
  unfold markDeleted
  split <;> rfl

theorem byFileId_upsertFile (index : LocalIndex) (entry : FileIndexEntry) (fileId : String) :
    (index.upsertFile entry).byFileId fileId
      = if entry.fileId = fileId then some entry else index.byFileId fileId :=
  Table.get?_set index.files entry fileId

/-- Marking an entry changes its flag only. -/
theorem byFileId_markDeleted (index : LocalIndex) (fileId fileId' : String) :
    (index.markDeleted fileId).byFileId fileId'
      = if fileId = fileId' then
          (index.byFileId fileId').map fun entry => { entry with deleted := true }
        else index.byFileId fileId' := by
  unfold markDeleted
  cases hentry : index.byFileId fileId with
  | none =>
    by_cases h : fileId = fileId'
    · subst h
      simp [hentry]
    · simp [h]
  | some entry =>
    have hid : entry.fileId = fileId := Table.key_of_get? hentry
    by_cases h : fileId = fileId'
    · subst h
      rw [if_pos rfl, hentry, ← hid]
      exact Table.get?_set_self index.files { entry with deleted := true }
    · rw [if_neg h]
      exact Table.get?_set_of_ne (by simpa [hid] using h)

end LocalIndex

/-! ### The vault -/

/-- The files on disk by path. -/
abbrev Vault := Table (Prod.fst : String × Bytes → String)

namespace Vault

/-- Whether there is a file at a path. -/
def contains (vault : Vault) (path : String) : Bool := (vault.get? path).isSome

/-- The bytes of a file. -/
def readBytes (vault : Vault) (path : String) : Option Bytes := (vault.get? path).map Prod.snd

/-- Bytes are written to a path. -/
def writeBytes (vault : Vault) (path : String) (bytes : Bytes) : Vault := vault.set (path, bytes)

/-- A text is written to a path. -/
def writeText (vault : Vault) (path text : String) : Vault :=
  vault.writeBytes path (encodeText text)

/-- The file at a path is moved to the trash. -/
def trash (vault : Vault) (path : String) : Vault := vault.erase path

/-- Move a file.  Obsidian refuses when the destination exists. -/
def rename (vault : Vault) (oldPath newPath : String) : Option Vault :=
  match vault.readBytes oldPath with
  | none => none
  | some bytes =>
    if vault.contains newPath then none
    else some (writeBytes (vault.erase oldPath) newPath bytes)

theorem readBytes_writeBytes (vault : Vault) (path path' : String) (bytes : Bytes) :
    readBytes (vault.writeBytes path bytes) path'
      = if path = path' then some bytes else readBytes vault path' := by
  rw [readBytes, writeBytes, Table.get?_set]
  split <;> rfl

end Vault

/-! ### What a path says -/

/-- The extensions of `isTextPath`. -/
def textExtensions : List String :=
  ["md", "txt", "json", "css", "csv", "yaml", "yml", "xml", "html", "js", "ts", "canvas"]

/-- `/\.(md|txt|…|canvas)$/i`. -/
def isTextPath (path : String) : Bool :=
  match splitAtLast '.' path.toList with
  | none => false
  | some (_, ext) => textExtensions.contains (String.ofList (ext.map Char.toLower))

/-- `path.startsWith(start)`. -/
def startsWith (path start : String) : Bool := start.toList.isPrefixOf path.toList

/-- The type of a file, by its path. -/
def classifyFileType (path : String) : FileType :=
  if startsWith path ".obsidian/" then .config
  else if isTextPath path then .note
  else .attachment

/-- The categories of the files of the configuration. -/
inductive ConfigCategory
  | app
  | corePlugins
  | communityPlugins
  | pluginSettings
  | themesSnippets
  | workspace
  deriving DecidableEq, Repr

/-- Whether a category is shared between the devices. -/
inductive ConfigSyncMode
  | common
  | local
  deriving DecidableEq, Repr

/-- `/^workspace.*\.json$/`: the dot stands for anything but a line terminator. -/
def isWorkspaceFile (rel : List Char) : Bool :=
  let rest := rel.drop "workspace".length
  startsWith (String.ofList rel) "workspace" && ".json".toList.isSuffixOf rest &&
    rest.all fun c => !(['\n', '\r', '\u2028', '\u2029'].contains c)

/-- The plugin file of `plugins/<id>/<file>`, where there is a non-empty id. -/
def pluginFile (rel : List Char) : Option String :=
  match rel.splitOn '/' with
  | [dir, id, file] =>
    if dir = "plugins".toList ∧ id ≠ [] then some (String.ofList file) else none
  | _ => none

/-- The category of a path, if it is in the configuration. -/
def categorizeConfigPath (path : String) : Option ConfigCategory :=
  if !startsWith path ".obsidian/" then none
  else
    let rel := path.toList.drop ".obsidian/".length
    let name := String.ofList rel
    -- the tests are in order: the first that holds decides
    if ["app.json", "appearance.json", "hotkeys.json"].contains name then some .app
    else if name = "core-plugins.json" then some .corePlugins
    else if name = "community-plugins.json" ||
        (pluginFile rel).any fun file =>
          ["manifest.json", "main.js", "styles.css"].contains file then
      some .communityPlugins
    else if pluginFile rel = some "data.json" then some .pluginSettings
    else if startsWith name "themes/" || startsWith name "snippets/" then some .themesSnippets
    else if isWorkspaceFile rel then some .workspace
    else none

/-- The decision on a path of a known category: whether its ops are applied. -/
structure ConfigSyncDecision where
  category : Option ConfigCategory
  applies : Bool
  deriving DecidableEq, Repr

/-- Whether a change of a path is applied, and its category. -/
def shouldApplyConfigPath (configSync : ConfigCategory → ConfigSyncMode) (path : String) :
    ConfigSyncDecision :=
  match categorizeConfigPath path with
  | none => { category := none, applies := false }
  | some category =>
    match configSync category with
    | .local => { category := some category, applies := false }
    | .common => { category := some category, applies := true }

example : categorizeConfigPath ".obsidian/plugins/x/data.json" = some .pluginSettings := by
  decide

end ObsidianSync
