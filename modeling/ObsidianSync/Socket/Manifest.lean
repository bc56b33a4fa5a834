import ObsidianSync.Lib.Base64
import ObsidianSync.Lib.Paging
import ObsidianSync.Server.PgStore
import ObsidianSync.Shared.Json
import ObsidianSync.Socket.Messages

/-!
# The pages of the manifest

A client reads the manifest of a vault page by page and sends the cursor of each
page back for the next one.  Both stores sort the live files by path and file
and select what lies after the cursor.  The tables sort and select by one
collation.  The store in memory sorts by `localeCompare` and selects by `>`,
which compares code units: where the two disagree at the end of a page, files
are left out or listed twice.

## Main definitions

* `encodeCursor`, `decodeCursor`, `manifestPage` — `ManifestService`.
* `InMemoryDataStore.listManifest`, `PgOpDataStore.listManifest` — the two stores.
* `fetchManifest` — the loop of the client.
* `ListsLiveFiles` — the pages hold every live file once, and nothing else.
* `PageEndsAgree` — at the end of each page the two orders agree.

## Main results

* `decodeCursor_encodeCursor` — a cursor is read back.
* `listsLiveFiles_pg` — the tables list the live files.
* `listsLiveFiles_inMemory_iff`, `listsLiveFiles_iff_pageEndsAgree` — the store in memory
  does exactly if the orders agree.
-/

namespace ObsidianSync

/-! ### Cursors -/

/-- `buffer.toString('utf8')`. -/
def bufferText (P : Platform) (bytes : Bytes) : String :=
  (String.fromUTF8? ⟨bytes.toArray⟩).getD (P.decodeLossy bytes)

theorem bufferText_encodeText (P : Platform) (text : String) :
    bufferText P (encodeText text) = text := by
  have hback : (⟨(encodeText text).toArray⟩ : ByteArray) = text.toUTF8 := by
    simp [encodeText]
  simp only [bufferText, hback, String.fromUTF8?, String.toUTF8_eq_toByteArray,
    dif_pos text.isValidUTF8]
  rfl

/-- `Buffer.from(JSON.stringify(cursor), 'utf8').toString('base64url')`. -/
def ManifestCursor.text (cursor : ManifestCursor) : String :=
  String.ofList (Base64.encode (encodeText (jsonStringify
    [("pathNormalized", cursor.pathNormalized), ("fileId", cursor.fileId)])))

/-- `encodeCursor`. -/
def encodeCursor (cursor : Option ManifestCursor) : Option String :=
  cursor.map ManifestCursor.text

/-- `decodeCursor`. -/
def decodeCursor (P : Platform) (cursor : Option String) :
    Except SyncError (Option ManifestCursor) :=
  let invalid : SyncError := { code := .BAD_REQUEST, message := "Invalid manifest cursor" }
  if truthy cursor then
    match jsonParse (bufferText P (Base64.decode (cursor.getD "").toList)) with
    | none => .error invalid
    | some parsed =>
      match parsed.field "pathNormalized", parsed.field "fileId" with
      | some (.str pathNormalized), some (.str fileId) => .ok (some { pathNormalized, fileId })
      | _, _ => .error invalid
  else .ok none

theorem ManifestCursor.text_ne_empty (cursor : ManifestCursor) : cursor.text ≠ "" := by
  intro h
  have hnil := congrArg String.toList h
  rw [text, String.toList_ofList] at hnil
  refine Base64.encode_ne_nil (fun hbytes => ?_) hnil
  have hempty : jsonStringify
      [("pathNormalized", cursor.pathNormalized), ("fileId", cursor.fileId)] = "" := by
    rw [← bufferText_encodeText samplePlatform (jsonStringify _), hbytes]
    exact bufferText_encodeText samplePlatform ""
  have hbrace := congrArg String.toList hempty
  rw [jsonStringify, String.toList_ofList] at hbrace
  exact List.cons_ne_nil _ _ hbrace

theorem truthy_text (cursor : ManifestCursor) : truthy (some cursor.text) = true :=
  (truthy_some cursor.text).trans (decide_eq_true cursor.text_ne_empty)

/-- **A cursor is read back.** -/
theorem decodeCursor_encodeCursor (P : Platform) (cursor : Option ManifestCursor) :
    decodeCursor P (encodeCursor cursor) = .ok cursor := by
  cases cursor with
  | none => rfl
  | some cursor =>
    simp only [decodeCursor, encodeCursor, Option.map_some, truthy_text, if_true,
      Option.getD_some]
    rw [ManifestCursor.text, String.toList_ofList, Base64.decode_encode, bufferText_encodeText,
      jsonParse_jsonStringify]
    rfl

/-! ### The two stores -/

/-- The live files of a vault among the rows. -/
def liveFiles (rows : List StoredFile) (vaultId : String) : List StoredFile :=
  rows.filter fun file => decide (LiveFile vaultId file)

/-- `f.pathNormalized > cursor.pathNormalized || (f.pathNormalized === cursor.pathNormalized
&& f.fileId > cursor.fileId)`. -/
def ManifestCursor.precedes (cursor place : ManifestCursor) : Bool :=
  utf16Lt cursor.pathNormalized place.pathNormalized ||
    (place.pathNormalized == cursor.pathNormalized && utf16Lt cursor.fileId place.fileId)

namespace InMemoryDataStore

/-- The live files, sorted by `a.pathNormalized.localeCompare(b.pathNormalized) ||
a.fileId.localeCompare(b.fileId)`. -/
def sortedFiles (locale : Collation) (s : Store) (vaultId : String) : List StoredFile :=
  (liveFiles s.files.rows vaultId).insertionSort fun a b =>
    (a.cursor.compare locale.compare b.cursor).isLE = true

/-- `InMemoryDataStore.listManifest`. -/
def listManifest (locale : Collation) (s : Store) (vaultId : String)
    (cursor : Option ManifestCursor) (limit : ℕ) : List ManifestEntry × Option ManifestCursor :=
  let filtered := (sortedFiles locale s vaultId).filter fun file =>
    cursor.all fun cursor => cursor.precedes file.cursor
  let page := filtered.take limit
  (page.map StoredFile.toManifestEntry,
    if limit < filtered.length then page.getLast?.map StoredFile.cursor else none)

end InMemoryDataStore

namespace PgOpDataStore

/-- The order of `(path_normalized, file_id)`: texts by the collation, and a `uuid` by its bytes,
as its canonical text. -/
def compareRows (collation : Collation) (a b : ManifestCursor) : Ordering :=
  (collation.compare a.pathNormalized b.pathNormalized).then (compare a.fileId b.fileId)

/-- `SELECT * FROM files WHERE vault_id=$1 AND deleted=false … ORDER BY path_normalized,file_id`. -/
def sortedRows (collation : Collation) (db : Database) (vaultId : String) : List StoredFile :=
  (liveFiles db.files.rows vaultId).insertionSort fun a b =>
    (compareRows collation a.cursor b.cursor).isLE = true

/-- `PgOpDataStore.listManifest`. -/
def listManifest (collation : Collation) (db : Database) (vaultId : String)
    (cursor : Option ManifestCursor) (limit : ℕ) : List ManifestEntry × Option ManifestCursor :=
  let rows := ((sortedRows collation db vaultId).filter fun file =>
    cursor.all fun cursor => (compareRows collation file.cursor cursor).isGT).take limit
  (rows.map StoredFile.toManifestEntry,
    if rows.length = limit then rows.getLast?.map StoredFile.cursor else none)

/-- `SELECT COALESCE(MAX(seq),0) AS seq FROM file_ops WHERE vault_id=$1`. -/
def currentSeq (db : Database) (vaultId : String) : ℕ :=
  ((db.fileOps.rows.filter fun op => op.vaultId = vaultId).map StoredOp.seq).foldl max 0

end PgOpDataStore

/-! ### The service and the loop -/

/-- A `manifest_page`. -/
structure ManifestPage where
  watermarkSeq : ℕ
  items : List ManifestEntry
  nextCursor : Option String

section

variable (P : Platform) (watermarkSeq : ℕ)
  (list : Option ManifestCursor → List ManifestEntry × Option ManifestCursor)

/-- `ManifestService.page` over a store that is at `watermarkSeq`. -/
def manifestPage (cursor : Option String) : Except SyncError ManifestPage :=
  match decodeCursor P cursor with
  | .error error => .error error
  | .ok place =>
    .ok { watermarkSeq, items := (list place).1, nextCursor := encodeCursor (list place).2 }

/-- The loop of `fetchManifest`; `none` where a page throws or the fuel does not last. -/
def fetchManifest (page : Option String → Except SyncError ManifestPage) :
    ℕ → Option String → Option (List ManifestEntry)
  | 0, _ => none
  | fuel + 1, cursor =>
    match page cursor with
    | .error _ => none
    | .ok read =>
      if truthy read.nextCursor then
        (fetchManifest page fuel read.nextCursor).map (read.items ++ ·)
      else some read.items

/-- **The pages hold every live file once, and nothing else.** -/
def ListsLiveFiles (live : List StoredFile) : Prop :=
  ∃ fuel entries, fetchManifest (manifestPage P watermarkSeq list) fuel none = some entries ∧
    entries.Perm (live.map StoredFile.toManifestEntry)

end

/-! ### Pages of rows -/

section

variable {P : Platform} {watermarkSeq limit enough : ℕ}
  {after : ManifestCursor → ManifestCursor → Bool}
  {list : Option ManifestCursor → List ManifestEntry × Option ManifestCursor}
  {sorted : List StoredFile}

/-- The loop over the messages follows the pages of the rows. -/
theorem fetchManifest_eq
    (hlist : ∀ cursor, list cursor
      = Prod.map (List.map StoredFile.toManifestEntry) id
          (Paging.page StoredFile.cursor after limit enough sorted cursor))
    (fuel : ℕ) (cursor : Option ManifestCursor) :
    fetchManifest (manifestPage P watermarkSeq list) fuel (encodeCursor cursor)
      = (Paging.follow (Paging.page StoredFile.cursor after limit enough sorted) fuel cursor).map
          (List.map StoredFile.toManifestEntry) := by
  induction fuel generalizing cursor with
  | zero => rfl
  | succ fuel ih =>
    rw [fetchManifest, Paging.follow, manifestPage, decodeCursor_encodeCursor]
    dsimp only
    rw [hlist]
    cases hpage : Paging.page StoredFile.cursor after limit enough sorted cursor with
    | mk items next =>
      cases next with
      | none => rfl
      | some next =>
        dsimp only [Prod.map, id_eq]
        rw [if_pos (show truthy (encodeCursor (some next)) = true from truthy_text next)]
        rw [ih (some next), Option.map_map, Option.map_map]
        congr 1
        funext rest
        exact List.map_append.symm

/-- Files with ids of their own are told apart by their entries. -/
theorem perm_of_map_toManifestEntry {items live : List StoredFile}
    (hids : ∀ a ∈ live, ∀ b ∈ live, a.fileId = b.fileId → a = b) (hnodup : live.Nodup)
    (hitems : items ⊆ live)
    (h : (items.map StoredFile.toManifestEntry).Perm (live.map StoredFile.toManifestEntry)) :
    items.Perm live := by
  have hinj : ∀ a ∈ live, ∀ b ∈ live, a.toManifestEntry = b.toManifestEntry → a = b :=
    fun a ha b hb hentry => hids a ha b hb (congrArg ManifestEntry.fileId hentry)
  have hentries : (live.map StoredFile.toManifestEntry).Nodup :=
    hnodup.map_on fun a ha b hb => hinj a ha b hb
  refine (List.perm_ext_iff_of_nodup (List.Nodup.of_map _ (h.symm.nodup hentries)) hnodup).mpr
    fun a => ⟨fun ha => hitems ha, fun ha => ?_⟩
  obtain ⟨b, hb, hentry⟩ := List.mem_map.mp (h.mem_iff.mpr (List.mem_map_of_mem ha))
  rwa [← hinj b (hitems hb) a ha hentry]

/-- **A store lists its live files exactly if its listing is parted at the end of each page.** -/
theorem listsLiveFiles_iff {live : List StoredFile}
    (hlist : ∀ cursor, list cursor
      = Prod.map (List.map StoredFile.toManifestEntry) id
          (Paging.page StoredFile.cursor after limit enough sorted cursor))
    (hsorted : sorted.Perm live) (hids : ∀ a ∈ live, ∀ b ∈ live, a.fileId = b.fileId → a = b)
    (hnodup : live.Nodup) (hirrefl : ∀ c, after c c = false)
    (htrans : ∀ a b c, after a b = true → after b c = true → after a c = true)
    (hlimit : 1 ≤ limit) (henough : limit ≤ enough) (hle : enough ≤ limit + 1) :
    ListsLiveFiles P watermarkSeq list live ↔
      Paging.PageEnds StoredFile.cursor after limit enough [] sorted := by
  rw [← Paging.perm_follow_iff htrans hirrefl hlimit henough hle (hsorted.symm.nodup hnodup)]
  have hfetch : ∀ fuel, fetchManifest (manifestPage P watermarkSeq list) fuel none
      = (Paging.follow (Paging.page StoredFile.cursor after limit enough sorted) fuel none).map
          (List.map StoredFile.toManifestEntry) :=
    fun fuel => fetchManifest_eq hlist fuel none
  constructor
  · rintro ⟨fuel, entries, hread, hperm⟩
    obtain ⟨items, hfollow, rfl⟩ := Option.map_eq_some_iff.mp ((hfetch fuel).symm.trans hread)
    have hitems : items ⊆ live := fun a ha => hsorted.mem_iff.mp (List.mem_of_mem_filter
      (Paging.mem_remaining_of_follow htrans hlimit henough hle hfollow a ha))
    exact ⟨fuel, items, hfollow,
      (perm_of_map_toManifestEntry hids hnodup hitems hperm).trans hsorted.symm⟩
  · rintro ⟨fuel, items, hfollow, hperm⟩
    exact ⟨fuel, _, (hfetch fuel).trans (congrArg _ hfollow), (hperm.trans hsorted).map _⟩

end

/-! ### The order of code units -/

/-- The rank of a place: the code units of its path, then those of its file. -/
def ManifestCursor.rank (place : ManifestCursor) : List ℕ ×ₗ List ℕ :=
  toLex (place.pathNormalized.toList.flatMap utf16Units, place.fileId.toList.flatMap utf16Units)

/-- The order of the code units is strict and total. -/
theorem precedes_iff_rank_lt {a b : ManifestCursor} :
    a.precedes b = true ↔ a.rank < b.rank := by
  have hpath : (b.pathNormalized == a.pathNormalized) = true ↔
      a.pathNormalized.toList.flatMap utf16Units = b.pathNormalized.toList.flatMap utf16Units := by
    rw [beq_iff_eq]
    exact ⟨fun h => h ▸ rfl, fun h =>
      (String.toList_inj.mp (flatMap_utf16Units_injective h)).symm⟩
  rw [ManifestCursor.precedes, ManifestCursor.rank, ManifestCursor.rank, Prod.Lex.toLex_lt_toLex,
    Bool.or_eq_true, Bool.and_eq_true, hpath, utf16Lt, utf16Lt, decide_eq_true_eq,
    decide_eq_true_eq]

theorem precedes_irrefl (a : ManifestCursor) : a.precedes a = false :=
  Bool.eq_false_iff.mpr fun h => lt_irrefl _ (precedes_iff_rank_lt.mp h)

theorem precedes_trans (a b c : ManifestCursor) (hab : a.precedes b = true)
    (hbc : b.precedes c = true) : a.precedes c = true :=
  precedes_iff_rank_lt.mpr ((precedes_iff_rank_lt.mp hab).trans (precedes_iff_rank_lt.mp hbc))

/-! ### The tables -/

/-- Live files of a vault with one id are one file, where the rows have keys of their own. -/
theorem nodup_liveFiles {κ : Type} [DecidableEq κ] {key : StoredFile → κ} (files : Table key)
    (vaultId : String) : (liveFiles files.rows vaultId).Nodup :=
  (List.Nodup.of_map _ files.nodup).filter _

theorem eq_of_mem_liveFiles {κ : Type} [DecidableEq κ] {key : StoredFile → κ} (files : Table key)
    (vaultId : String)
    (hkey : ∀ a b : StoredFile, a.vaultId = b.vaultId → a.fileId = b.fileId → key a = key b) :
    ∀ a ∈ liveFiles files.rows vaultId, ∀ b ∈ liveFiles files.rows vaultId,
      a.fileId = b.fileId → a = b := by
  intro a ha b hb hids
  obtain ⟨hmemA, hliveA⟩ := List.mem_filter.mp ha
  obtain ⟨hmemB, hliveB⟩ := List.mem_filter.mp hb
  have hvault : a.vaultId = b.vaultId :=
    (of_decide_eq_true hliveA).1.trans (of_decide_eq_true hliveB).1.symm
  exact files.eq_of_key_eq hmemA hmemB (hkey a b hvault hids)

section

variable (P : Platform) (vaultId : String) {limit : ℕ}

/-- The rows are compared by a preorder that tells files apart. -/
instance (collation : Collation) : Std.TransCmp (PgOpDataStore.compareRows collation) :=
  have := collation.transCmp_on ManifestCursor.pathNormalized
  inferInstanceAs (Std.TransCmp (compareLex
    (fun a b : ManifestCursor => collation.compare a.pathNormalized b.pathNormalized)
    (compareOn ManifestCursor.fileId)))

theorem fileId_eq_of_compareRows {collation : Collation} {a b : ManifestCursor}
    (h : PgOpDataStore.compareRows collation a b = .eq) : a.fileId = b.fileId :=
  compare_eq_iff_eq.mp (Ordering.then_eq_eq.mp h).2

/-- The rows come in strict order. -/
theorem pairwise_sortedRows (collation : Collation) (db : Database) (vaultId : String) :
    (PgOpDataStore.sortedRows collation db vaultId).Pairwise fun a b =>
      PgOpDataStore.compareRows collation b.cursor a.cursor = .gt := by
  let noLater (a b : StoredFile) : Prop :=
    (PgOpDataStore.compareRows collation a.cursor b.cursor).isLE = true
  have : Std.Total noLater := ⟨fun a b => by
    rw [or_iff_not_imp_left]
    intro h
    exact Ordering.isLE_of_eq_lt (Std.OrientedCmp.lt_of_not_isLE h)⟩
  have : IsTrans StoredFile noLater := ⟨fun _ _ _ => Std.TransCmp.isLE_trans⟩
  have hsorted : (PgOpDataStore.sortedRows collation db vaultId).Pairwise noLater :=
    List.pairwise_insertionSort noLater _
  have hperm : (PgOpDataStore.sortedRows collation db vaultId).Perm
      (liveFiles db.files.rows vaultId) := List.perm_insertionSort _ _
  have hdistinct : (PgOpDataStore.sortedRows collation db vaultId).Nodup :=
    hperm.symm.nodup (nodup_liveFiles db.files vaultId)
  refine (hsorted.and hdistinct).imp_of_mem fun {a b} ha hb ⟨hle, hne⟩ => ?_
  -- two rows that compare equal have one id, and are one row
  have hneq : PgOpDataStore.compareRows collation a.cursor b.cursor ≠ .eq := fun heq =>
    hne (eq_of_mem_liveFiles db.files vaultId (fun _ _ _ hid => hid) a (hperm.mem_iff.mp ha) b
      (hperm.mem_iff.mp hb) (fileId_eq_of_compareRows heq))
  rcases Ordering.isLE_iff_eq_lt_or_eq_eq.mp hle with hlt | heq
  · exact Std.OrientedCmp.gt_of_lt hlt
  · exact absurd heq hneq

/-- **The tables list the live files.** -/
theorem listsLiveFiles_pg (collation : Collation) (db : Database) (hlimit : 1 ≤ limit) :
    ListsLiveFiles P (PgOpDataStore.currentSeq db vaultId)
      (fun cursor => PgOpDataStore.listManifest collation db vaultId cursor limit)
      (liveFiles db.files.rows vaultId) := by
  let after (cursor place : ManifestCursor) : Bool :=
    (PgOpDataStore.compareRows collation place cursor).isGT
  have hlist : ∀ cursor, PgOpDataStore.listManifest collation db vaultId cursor limit
      = Prod.map (List.map StoredFile.toManifestEntry) id (Paging.page StoredFile.cursor after
          limit limit (PgOpDataStore.sortedRows collation db vaultId) cursor) := by
    intro cursor
    have hfull : ∀ rows : List StoredFile, (rows.take limit).length = limit ↔ limit ≤ rows.length :=
      fun rows => by rw [List.length_take, min_eq_left_iff]
    unfold PgOpDataStore.listManifest Paging.page
    simp only [hfull]
    rfl
  have hperm : (PgOpDataStore.sortedRows collation db vaultId).Perm
      (liveFiles db.files.rows vaultId) := List.perm_insertionSort _ _
  have hids := eq_of_mem_liveFiles db.files vaultId fun _ _ _ hid => hid
  have hordered : (PgOpDataStore.sortedRows collation db vaultId).Pairwise fun a b =>
      after a.cursor b.cursor = true :=
    (pairwise_sortedRows collation db vaultId).imp fun h => Ordering.isGT_iff_eq_gt.mpr h
  have hasymm : ∀ a b, after a b = true → after b a = false := by
    intro a b h
    exact Bool.eq_false_iff.mpr fun h' => Std.OrientedCmp.not_gt_of_gt
      (Ordering.isGT_iff_eq_gt.mp h) (Ordering.isGT_iff_eq_gt.mp h')
  refine (listsLiveFiles_iff hlist hperm hids (nodup_liveFiles db.files vaultId) ?_ ?_ hlimit
    le_rfl (Nat.le_succ _)).mpr (Paging.pageEnds_of_pairwise hasymm hordered)
  · intro c
    exact Bool.eq_false_iff.mpr fun h => by rw [hasymm c c h] at h; exact Bool.false_ne_true h
  · intro a b c hab hbc
    exact Ordering.isGT_iff_eq_gt.mpr (Std.TransCmp.gt_trans (Ordering.isGT_iff_eq_gt.mp hbc)
      (Ordering.isGT_iff_eq_gt.mp hab))

/-- At the end of each page that has a next one, the code units part the sorted files where the
page ends. -/
def PageEndsAgree (locale : Collation) (s : Store) (limit : ℕ) : Prop :=
  ∀ front last tail, InMemoryDataStore.sortedFiles locale s vaultId = front ++ last :: tail →
    limit ∣ front.length + 1 → tail ≠ [] →
      (∀ file ∈ front, last.cursor.precedes file.cursor = false) ∧
        ∀ file ∈ tail, last.cursor.precedes file.cursor = true

/-- **The store in memory lists the live files exactly if the orders agree.** -/
theorem listsLiveFiles_inMemory_iff (locale : Collation) (s : Store) (hlimit : 1 ≤ limit) :
    ListsLiveFiles P (s.currentSeq vaultId)
      (fun cursor => InMemoryDataStore.listManifest locale s vaultId cursor limit)
      (liveFiles s.files.rows vaultId) ↔ PageEndsAgree vaultId locale s limit := by
  have hlist : ∀ cursor, InMemoryDataStore.listManifest locale s vaultId cursor limit
      = Prod.map (List.map StoredFile.toManifestEntry) id (Paging.page StoredFile.cursor
          ManifestCursor.precedes limit (limit + 1)
          (InMemoryDataStore.sortedFiles locale s vaultId) cursor) :=
    fun _ => rfl
  have hperm : (InMemoryDataStore.sortedFiles locale s vaultId).Perm
      (liveFiles s.files.rows vaultId) := List.perm_insertionSort _ _
  have hids := eq_of_mem_liveFiles s.files vaultId fun _ _ hvault hid =>
    Prod.ext hvault hid
  rw [listsLiveFiles_iff hlist hperm hids (nodup_liveFiles s.files vaultId) precedes_irrefl
    precedes_trans hlimit (Nat.le_succ _) le_rfl]
  refine forall_congr' fun front => forall_congr' fun last => forall_congr' fun tail =>
    imp_congr_right fun _ => imp_congr_right fun _ => ?_
  rw [List.nil_append]
  refine imp_congr ?_ Iff.rfl
  rw [Nat.add_le_add_iff_left, Nat.succ_le_iff, List.length_pos_iff_ne_nil]

/-- **Both stores list the live files exactly if the two orders of the store in memory agree at
the end of each page.** -/
theorem listsLiveFiles_iff_pageEndsAgree (locale collation : Collation) (s : Store) (db : Database)
    (hlimit : 1 ≤ limit) :
    (ListsLiveFiles P (s.currentSeq vaultId)
        (fun cursor => InMemoryDataStore.listManifest locale s vaultId cursor limit)
        (liveFiles s.files.rows vaultId) ∧
      ListsLiveFiles P (PgOpDataStore.currentSeq db vaultId)
        (fun cursor => PgOpDataStore.listManifest collation db vaultId cursor limit)
        (liveFiles db.files.rows vaultId)) ↔ PageEndsAgree vaultId locale s limit := by
  rw [and_iff_left (listsLiveFiles_pg P vaultId collation db hlimit)]
  exact listsLiveFiles_inMemory_iff P vaultId locale s hlimit

end

/-! ### An accent at the end of a page -/

/-- A collation that agrees with the real one on small letters and `é`: letters come before
accents. -/
def sampleCollation : Collation where
  compare := compareLex (compareOn fun text => text.map fun c => if c = 'é' then 'e' else c) compare
  trans := inferInstance

/-- A live file of the vault. -/
def sampleManifestFile (fileId path : String) : StoredFile :=
  { fileId, vaultId := "v", type := .note, path, pathNormalized := path,
    pathClock := { lamport := 1, deviceId := "d1" }, contentVV := Table.empty,
    contentHash := none, size := none, blobRef := none, contentEncoding := none, deleteVV := none,
    deleted := false, deletedAt := none, epoch := 0, conflictId := none, activeUntil := none,
    updatedAt := 0 }

/-- The last of the notes in code units. -/
def sampleZ : StoredFile := sampleManifestFile "11111111-1111-4111-8111-111111111111" "z.md"

/-- The last of the notes in the order of the locale. -/
def sampleAccent : StoredFile := sampleManifestFile "22222222-2222-4222-8222-222222222222" "é.md"

/-- A store in memory with two files. -/
def sampleManifest : Store := (({} : Store).saveFile sampleZ).saveFile sampleAccent

/-- The same in the tables. -/
def sampleManifestRows : Database :=
  { files := (Table.empty.set sampleZ).set sampleAccent }

theorem sortedFiles_sampleManifest :
    InMemoryDataStore.sortedFiles sampleCollation sampleManifest "v" = [sampleAccent, sampleZ] := by
  decide +kernel

/-- Three files: the accent comes on the second page. -/
def samplePagedFiles : Table StoredFile.key :=
  ((Table.empty.set sampleAccent).set
    (sampleManifestFile "33333333-3333-4333-8333-333333333333" "d.md")).set
    (sampleManifestFile "44444444-4444-4444-8444-444444444444" "b.md")

/-- A store in memory with them. -/
def samplePaged : Store := { files := samplePagedFiles }

/-- The same in the tables. -/
def samplePagedRows : Database :=
  { files := samplePagedFiles.rows.foldl Table.set Table.empty }

theorem sortedFiles_samplePaged :
    InMemoryDataStore.sortedFiles sampleCollation samplePaged "v" =
      [sampleManifestFile "44444444-4444-4444-8444-444444444444" "b.md",
        sampleManifestFile "33333333-3333-4333-8333-333333333333" "d.md", sampleAccent] := by
  decide +kernel

/-- With two files on a page, the first page ends where the orders agree. -/
theorem listsLiveFiles_samplePaged :
    ListsLiveFiles samplePlatform (samplePaged.currentSeq "v")
        (fun cursor => InMemoryDataStore.listManifest sampleCollation samplePaged "v" cursor 2)
        (liveFiles samplePaged.files.rows "v") ∧
      ListsLiveFiles samplePlatform (PgOpDataStore.currentSeq samplePagedRows "v")
        (fun cursor => PgOpDataStore.listManifest sampleCollation samplePagedRows "v" cursor 2)
        (liveFiles samplePagedRows.files.rows "v") := by
  refine (listsLiveFiles_iff_pageEndsAgree samplePlatform "v" sampleCollation sampleCollation
    samplePaged samplePagedRows (by decide)).mpr fun front last tail hsplit hdvd htail => ?_
  rw [sortedFiles_samplePaged] at hsplit
  have hmore := List.length_pos_of_ne_nil htail
  have hlength := congrArg List.length hsplit
  rw [List.length_append, List.length_cons, List.length_cons, List.length_cons, List.length_cons,
    List.length_nil] at hlength
  -- the second file is the only one at the end of a page
  obtain ⟨first, rfl⟩ : ∃ first, front = [first] := List.length_eq_one_iff.mp (by omega)
  simp only [List.cons_append, List.nil_append, List.cons.injEq] at hsplit
  obtain ⟨rfl, rfl, rfl⟩ := hsplit
  decide +kernel

/-- Where each page holds one file, `z.md` is left out: it comes after `é.md`, but its code units
come before. -/
theorem not_listsLiveFiles_sampleManifest :
    ¬ (ListsLiveFiles samplePlatform (sampleManifest.currentSeq "v")
        (fun cursor => InMemoryDataStore.listManifest sampleCollation sampleManifest "v" cursor 1)
        (liveFiles sampleManifest.files.rows "v") ∧
      ListsLiveFiles samplePlatform (PgOpDataStore.currentSeq sampleManifestRows "v")
        (fun cursor => PgOpDataStore.listManifest sampleCollation sampleManifestRows "v" cursor 1)
        (liveFiles sampleManifestRows.files.rows "v")) := by
  rintro ⟨hlists, -⟩
  have hagree := (listsLiveFiles_inMemory_iff samplePlatform "v" sampleCollation sampleManifest
    le_rfl).mp hlists
  have hafter := (hagree [] sampleAccent [sampleZ] sortedFiles_sampleManifest (by decide)
    (List.cons_ne_nil _ _)).2 sampleZ (List.mem_singleton.mpr rfl)
  have hbefore : sampleAccent.cursor.precedes sampleZ.cursor = false := by decide +kernel
  exact Bool.false_ne_true (hbefore.symm.trans hafter)

end ObsidianSync
