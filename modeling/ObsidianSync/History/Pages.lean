import ObsidianSync.History.Versions
import ObsidianSync.Lib.Cursor

/-!
# Paging through the history

The history of a note is handed out in pages.  A call names the last version of the
page before, and the store looks that version up to find where to go on.  Between two
calls the collector may prune versions; where it prunes the one that is named, the store
does not find it and starts at the top.

## Main definitions

* `InMemoryYjsRoomStore.listSnapshotHistory`, `PgYjsRoomStore.listSnapshotHistory` — a
  page.
* `InMemoryYjsRoomStore.pruneSnapshotHistory`, `PgYjsRoomStore.pruneSnapshotHistory` —
  pruning.
* `versionsAt` — the page of a call, after what was pruned so far.
* `ShowsEachOnce` — the pages end, and show what stays once, the newest first.
* `LossesHarmless` — where the version that a call names is pruned, none that stays is
  newer.

## Main results

* `versions_listSnapshotHistory` — both stores hand out the listing after the version.
* `showsEachOnce_iff_lossesHarmless` — the pages show what stays once exactly if each
  such loss is harmless.
-/

namespace ObsidianSync

/-- The versions under their ids: a `Map`, or the table `yjs_snapshot_history`. -/
abbrev History := Table StoredVersion.versionId

/-- The metadata of some versions, and whether there are more. -/
structure YjsHistoryPage where
  versions : List StoredVersion
  more : Bool
  deriving DecidableEq, Repr

/-! ### The store in memory -/

namespace InMemoryYjsRoomStore

/-- A page of the versions of a note, the newest first. -/
def listSnapshotHistory (locale : Collation) (history : History) (vaultId fileId : String)
    (limit : ℕ) (beforeVersionId : Option String) : YjsHistoryPage :=
  let sorted := sortVersions locale id
    (history.rows.filter fun v => v.vaultId = vaultId ∧ v.fileId = fileId)
  let before :=
    if truthy beforeVersionId then sorted.find? fun v => some v.versionId = beforeVersionId
    else none
  let filtered :=
    match before with
    | some before => sorted.filter fun v => compareVersionsDesc locale v before = Ordering.gt
    | none => sorted
  let page := filtered.take (limit + 1)
  { versions := page.take limit, more := limit < page.length }

/-- The history without the versions, and how many of them it had. -/
def pruneSnapshotHistory (history : History) (versionIds : List String) : History × ℕ :=
  versionIds.foldl (fun pruned versionId =>
    if (pruned.1.get? versionId).isSome then (pruned.1.erase versionId, pruned.2 + 1)
    else pruned) (history, 0)

theorem rows_pruneSnapshotHistory (history : History) (versionIds : List String) :
    (pruneSnapshotHistory history versionIds).1.rows =
      history.rows.filter fun v => v.versionId ∉ versionIds := by
  unfold pruneSnapshotHistory
  generalize 0 = deleted
  induction versionIds generalizing history deleted with
  | nil => simp
  | cons versionId versionIds ih =>
    rw [List.foldl_cons]
    dsimp only
    split
    · rw [ih, Table.erase, List.filter_filter]
      exact List.filter_congr fun v _ => by simp [Bool.and_comm]
    · next hrow =>
      rw [Option.not_isSome_iff_eq_none, Table.get?_eq_none_iff] at hrow
      rw [ih]
      exact List.filter_congr fun v hv => by simp [hrow v hv]

end InMemoryYjsRoomStore

/-! ### The store in PostgreSQL -/

namespace PgYjsRoomStore

/-- `(created_at,seq,version_id)`, row by row; an id is compared byte by byte. -/
def compareRows : StoredVersion → StoredVersion → Ordering := compareVersions codePoints

/-- A page of the versions of a note, the newest first. -/
def listSnapshotHistory (history : History) (vaultId fileId : String) (limit : ℕ)
    (beforeVersionId : Option String) : YjsHistoryPage :=
  let before :=
    if truthy beforeVersionId then
      history.rows.find? fun v =>
        v.vaultId = vaultId ∧ v.fileId = fileId ∧ some v.versionId = beforeVersionId
    else none
  let selected := history.rows.filter fun v => (v.vaultId = vaultId ∧ v.fileId = fileId) ∧
    before.all fun before => compareRows v before = .lt
  -- `ORDER BY created_at DESC, seq DESC, version_id DESC LIMIT limit + 1`
  let rows := (selected.insertionSort fun v other =>
    (compareRows other v).isLE = true).take (limit + 1)
  { versions := rows.take limit, more := limit < rows.length }

/-- The versions named are deleted, and counted. -/
def pruneSnapshotHistory (history : History) (versionIds : List String) : History × ℕ :=
  if versionIds = [] then (history, 0)
  else
    ({ rows := history.rows.filter fun v => v.versionId ∉ versionIds
       nodup := history.nodup.sublist (List.filter_sublist.map _) },
      history.rows.countP fun v => v.versionId ∈ versionIds)

theorem rows_pruneSnapshotHistory (history : History) (versionIds : List String) :
    (pruneSnapshotHistory history versionIds).1.rows =
      history.rows.filter fun v => v.versionId ∉ versionIds := by
  unfold pruneSnapshotHistory
  split
  · next hnone => simp [hnone]
  · rfl

end PgYjsRoomStore

/-! ### Either store -/

/-- Which store the server runs with. -/
inductive RoomStoreKind
  | inMemory (locale : Collation)
  | postgres

namespace RoomStoreKind

/-- How the store compares ids. -/
def locale : RoomStoreKind → Collation
  | inMemory locale => locale
  | postgres => codePoints

/-- A page of the versions of a note, in either store. -/
def listSnapshotHistory : RoomStoreKind → History → String → String → ℕ → Option String →
    YjsHistoryPage
  | inMemory locale => InMemoryYjsRoomStore.listSnapshotHistory locale
  | postgres => PgYjsRoomStore.listSnapshotHistory

/-- The versions named are deleted, from either store. -/
def pruneSnapshotHistory : RoomStoreKind → History → List String → History × ℕ
  | inMemory _ => InMemoryYjsRoomStore.pruneSnapshotHistory
  | postgres => PgYjsRoomStore.pruneSnapshotHistory

/-- **Pruning takes away the versions of these ids**, and no others. -/
theorem rows_pruneSnapshotHistory (store : RoomStoreKind) (history : History)
    (versionIds : List String) :
    (store.pruneSnapshotHistory history versionIds).1.rows =
      history.rows.filter fun v => v.versionId ∉ versionIds := by
  cases store with
  | inMemory => exact InMemoryYjsRoomStore.rows_pruneSnapshotHistory history versionIds
  | postgres => exact PgYjsRoomStore.rows_pruneSnapshotHistory history versionIds

end RoomStoreKind

/-- The versions of a note, the newest first. -/
def newestFirst (locale : Collation) (history : History) (vaultId fileId : String) :
    List StoredVersion :=
  sortVersions locale id (history.rows.filter fun v => v.vaultId = vaultId ∧ v.fileId = fileId)

/-- The version is listed before the other. -/
def isNewer (locale : Collation) (a b : StoredVersion) : Bool :=
  compareVersionsDesc locale a b = .lt

variable {locale : Collation} {history : History} {vaultId fileId : String}

theorem mem_newestFirst {v : StoredVersion} :
    v ∈ newestFirst locale history vaultId fileId ↔
      v ∈ history.rows ∧ v.vaultId = vaultId ∧ v.fileId = fileId := by
  rw [newestFirst, (perm_sortVersions _).mem_iff, List.mem_filter, decide_eq_true_iff]

theorem nodup_versionId_rows (history : History) :
    ∀ a ∈ history.rows, ∀ b ∈ history.rows, a.versionId = b.versionId → a = b :=
  fun _ ha _ hb hid => Table.eq_of_key_eq ha hb hid

theorem isNewer_iff {a b : StoredVersion} :
    isNewer locale a b = true ↔ compareVersionsDesc locale b a = .gt := by
  rw [isNewer, decide_eq_true_iff, Std.OrientedCmp.gt_iff_lt]

/-- The listing is ordered. -/
theorem pairwise_newestFirst (htotal : locale.IsTotal) (history : History)
    (vaultId fileId : String) :
    (newestFirst locale history vaultId fileId).Pairwise fun a b => isNewer locale a b = true := by
  have hnodup : (newestFirst locale history vaultId fileId).Nodup :=
    (perm_sortVersions _).nodup_iff.mpr ((List.Nodup.of_map _ history.nodup).filter _)
  have hsorted : (newestFirst locale history vaultId fileId).Pairwise fun a b =>
      NoLater locale a b := pairwise_sortVersions _
  refine (hsorted.and hnodup).imp_of_mem ?_
  rintro a b ha hb ⟨hle, hne⟩
  have hids : a.versionId ≠ b.versionId := fun hid => hne
    (nodup_versionId_rows history a (mem_newestFirst.mp ha).1 b (mem_newestFirst.mp hb).1 hid)
  have hneq : compareVersionsDesc locale a b ≠ .eq := fun heq =>
    hids (versionId_eq_of_compareVersionsDesc htotal heq)
  unfold NoLater at hle
  unfold isNewer
  revert hle hneq
  cases compareVersionsDesc locale a b <;> simp

/-- A search for one version. -/
theorem find?_of_unique {rows : List StoredVersion} {cursor : StoredVersion}
    {p : StoredVersion → Bool} (hp : ∀ v ∈ rows, p v = true ↔ v = cursor) :
    rows.find? p = if cursor ∈ rows then some cursor else none := by
  split
  · next hmem =>
    cases hfind : rows.find? p with
    | none => exact absurd ((hp cursor hmem).mpr rfl) (List.find?_eq_none.mp hfind cursor hmem)
    | some v =>
      rw [(hp v (List.mem_of_find?_eq_some hfind)).mp (List.find?_some hfind)]
  · next hmem =>
    exact List.find?_eq_none.mpr fun v hv hfound => hmem ((hp v hv).mp hfound ▸ hv)

/-- What a call can name: a version of the note that no other has the id of. -/
structure IsPlace (history : History) (vaultId fileId : String) (cursor : StoredVersion) :
    Prop where
  named : cursor.versionId ≠ ""
  ofNote : cursor.vaultId = vaultId ∧ cursor.fileId = fileId
  unique : ∀ v ∈ history.rows, v.versionId = cursor.versionId → v = cursor

/-- The rows after one are selected before they are sorted. -/
theorem sortVersions_after (htotal : codePoints.IsTotal) (c : StoredVersion) :
    sortVersions codePoints id (history.rows.filter fun v =>
        (v.vaultId = vaultId ∧ v.fileId = fileId) ∧
          decide (PgYjsRoomStore.compareRows v c = .lt) = true) =
      (newestFirst codePoints history vaultId fileId).filter fun v => isNewer codePoints c v := by
  have hselect := @sortVersions_filter _ _ id htotal
    (history.rows.filter fun v => v.vaultId = vaultId ∧ v.fileId = fileId)
    (fun a ha b hb => nodup_versionId_rows history a (List.mem_filter.mp ha).1 b
      (List.mem_filter.mp hb).1) fun v => isNewer codePoints c v
  rw [newestFirst, ← hselect, List.filter_filter]
  refine congrArg (sortVersions codePoints id) (List.filter_congr fun v _ => ?_)
  rw [Bool.eq_iff_iff, decide_eq_true_iff, decide_eq_true_iff, Bool.and_eq_true,
    decide_eq_true_iff, and_comm, isNewer, decide_eq_true_iff, compareVersionsDesc_eq]
  rfl

/-- **A page of either store** is the first of what is left after the version that is named. -/
theorem versions_listSnapshotHistory (store : RoomStoreKind) (htotal : store.locale.IsTotal)
    (limit : ℕ) {cursor : Option StoredVersion}
    (hcursor : ∀ c ∈ cursor, IsPlace history vaultId fileId c) :
    (store.listSnapshotHistory history vaultId fileId limit
        (cursor.map StoredVersion.versionId)).versions =
      (Cursor.leftAfter (isNewer store.locale)
        (newestFirst store.locale history vaultId fileId) cursor).take limit := by
  have htake : ∀ rows : List StoredVersion, (rows.take (limit + 1)).take limit = rows.take limit :=
    fun rows => by rw [List.take_take, min_eq_left (Nat.le_succ limit)]
  -- one store sorts and then looks for the cursor, the other one the other way round
  cases store with
  | inMemory locale =>
    simp only [RoomStoreKind.listSnapshotHistory, InMemoryYjsRoomStore.listSnapshotHistory,
      RoomStoreKind.locale, htake]
    cases cursor with
    | none => rfl
    | some c =>
      obtain ⟨hnamed, -, hunique⟩ := hcursor c rfl
      have hfind : (newestFirst locale history vaultId fileId).find?
          (fun v => some v.versionId = some c.versionId) =
            if c ∈ newestFirst locale history vaultId fileId then some c else none :=
        find?_of_unique fun v hv => by
          rw [decide_eq_true_iff, Option.some.injEq]
          exact ⟨hunique v (mem_newestFirst.mp hv).1, congrArg _⟩
      rw [Option.map_some, truthy_some, decide_eq_true hnamed, if_pos rfl, ← newestFirst, hfind,
        Cursor.leftAfter]
      by_cases hmem : c ∈ newestFirst locale history vaultId fileId
      · simp only [if_pos hmem]
        exact congrArg (List.take limit) (List.filter_congr fun v _ => by
          rw [Bool.eq_iff_iff, decide_eq_true_iff, isNewer_iff])
      · simp only [if_neg hmem]
  | postgres =>
    have hsorted : ∀ rows : List StoredVersion,
        (rows.insertionSort fun v other => (PgYjsRoomStore.compareRows other v).isLE = true) =
          sortVersions codePoints id rows := fun _ => rfl
    simp only [RoomStoreKind.listSnapshotHistory, PgYjsRoomStore.listSnapshotHistory,
      RoomStoreKind.locale, htake, hsorted]
    cases cursor with
    | none => simp [newestFirst, Cursor.leftAfter]
    | some c =>
      obtain ⟨hnamed, hnote, hunique⟩ := hcursor c rfl
      have hfind : (history.rows.find? fun v => v.vaultId = vaultId ∧ v.fileId = fileId ∧
          some v.versionId = some c.versionId) =
            if c ∈ newestFirst codePoints history vaultId fileId then some c else none := by
        rw [@find?_of_unique _ c _ fun v hv => ?_]
        · simp only [mem_newestFirst, hnote, and_true]
        · rw [decide_eq_true_iff, Option.some.injEq]
          refine ⟨fun h => hunique v hv h.2.2, ?_⟩
          rintro rfl
          exact ⟨hnote.1, hnote.2, rfl⟩
      rw [Option.map_some, truthy_some, decide_eq_true hnamed, if_pos rfl, hfind,
        Cursor.leftAfter]
      by_cases hmem : c ∈ newestFirst codePoints history vaultId fileId
      · simp only [if_pos hmem, Option.all_some]
        exact congrArg (List.take limit) (sortVersions_after htotal c)
      · simp only [if_neg hmem, Option.all_none, and_true]
        rfl

/-! ### Page after page -/

section

variable (store : RoomStoreKind) (history : History) (vaultId fileId : String) (limit : ℕ)
  (pruned : ℕ → List String)

/-- The history at a call: before each call but the first some versions may be pruned. -/
def historyAt : ℕ → History
  | 0 => history
  | n + 1 => (store.pruneSnapshotHistory (historyAt n) (pruned n)).1

/-- The version that a call names: the last one of the page before. -/
def cursorAt : ℕ → Option StoredVersion
  | 0 => none
  | n + 1 =>
    (store.listSnapshotHistory (historyAt store history pruned n) vaultId fileId limit
      ((cursorAt n).map StoredVersion.versionId)).versions.getLast?

/-- The page of a call. -/
def versionsAt (n : ℕ) : List StoredVersion :=
  (store.listSnapshotHistory (historyAt store history pruned n) vaultId fileId limit
    ((cursorAt store history vaultId fileId limit pruned n).map StoredVersion.versionId)).versions

/-- The call is the first one whose page is empty. -/
def EndsAt (last : ℕ) : Prop :=
  versionsAt store history vaultId fileId limit pruned last = [] ∧
    ∀ call < last, versionsAt store history vaultId fileId limit pruned call ≠ []

/-- The pages end, and of the versions shown those that stay to the end are the history of the
note then, each once and the newest first. -/
def ShowsEachOnce : Prop :=
  ∃ last, EndsAt store history vaultId fileId limit pruned last ∧
    ((List.range last).flatMap (versionsAt store history vaultId fileId limit pruned)).filter
        (· ∈ (historyAt store history pruned last).rows) =
      newestFirst store.locale (historyAt store history pruned last) vaultId fileId

/-- Where the version that a call names is pruned, none of the note that stays until the last call
is newer. -/
def HarmlessUntil (last : ℕ) : Prop :=
  ∀ call ≤ last, ∀ cursor ∈ cursorAt store history vaultId fileId limit pruned call,
    cursor ∉ (historyAt store history pruned call).rows →
      ∀ v ∈ newestFirst store.locale (historyAt store history pruned last) vaultId fileId,
        isNewer store.locale v cursor = false

/-- Where the version that a call names is pruned, none of the note that stays to the end is
newer. -/
def LossesHarmless : Prop :=
  ∀ last, EndsAt store history vaultId fileId limit pruned last →
    HarmlessUntil store history vaultId fileId limit pruned last

end

section

variable {store : RoomStoreKind} {limit : ℕ} {pruned : ℕ → List String}

/-- The history only loses versions. -/
theorem sublist_historyAt (n : ℕ) :
    (historyAt store history pruned n).rows.Sublist history.rows := by
  induction n with
  | zero => exact List.Sublist.refl _
  | succ n ih =>
    rw [historyAt, store.rows_pruneSnapshotHistory]
    exact List.filter_sublist.trans ih

/-- The history of the note at a call. -/
def listingAt (store : RoomStoreKind) (history : History) (vaultId fileId : String)
    (pruned : ℕ → List String) (n : ℕ) : List StoredVersion :=
  newestFirst store.locale (historyAt store history pruned n) vaultId fileId

/-- It is ordered, and only loses versions. -/
theorem shrinks_listingAt (htotal : store.locale.IsTotal) :
    Cursor.Shrinks (isNewer store.locale) (listingAt store history vaultId fileId pruned) where
  ordered := pairwise_newestFirst htotal _ _ _
  shrinks n := by
    have hfilter : listingAt store history vaultId fileId pruned (n + 1) =
        (listingAt store history vaultId fileId pruned n).filter
          fun v => v.versionId ∉ pruned n := by
      have hselect := @sortVersions_filter _ _ id htotal
        ((historyAt store history pruned n).rows.filter fun v =>
          v.vaultId = vaultId ∧ v.fileId = fileId)
        (fun a ha b hb => nodup_versionId_rows _ a (List.mem_filter.mp ha).1 b
          (List.mem_filter.mp hb).1) fun v => v.versionId ∉ pruned n
      rw [listingAt, listingAt, newestFirst, newestFirst, ← hselect, historyAt,
        store.rows_pruneSnapshotHistory, List.filter_filter, List.filter_filter]
      simp only [Bool.and_comm]
    rw [hfilter]
    exact List.filter_sublist
  asymm a b h := by
    rw [isNewer, decide_eq_true_iff] at h
    rw [isNewer, decide_eq_false_iff_not]
    exact Std.OrientedCmp.not_lt_of_lt h
  trans a b c hab hbc := by
    rw [isNewer, decide_eq_true_iff] at *
    exact Std.TransCmp.lt_trans hab hbc

variable (htotal : store.locale.IsTotal) (hnamed : ∀ v ∈ history.rows, v.versionId ≠ "")

include htotal hnamed

/-- A page is the first of what is left. -/
theorem versionsAt_eq {n : ℕ}
    (hcursor : cursorAt store history vaultId fileId limit pruned n =
      Cursor.cursorAt (isNewer store.locale) limit
        (listingAt store history vaultId fileId pruned) n) :
    versionsAt store history vaultId fileId limit pruned n =
      Cursor.page (isNewer store.locale) limit
        (listingAt store history vaultId fileId pruned) n := by
  rw [versionsAt, versions_listSnapshotHistory store htotal limit fun c hc => ?_, hcursor]
  · rfl
  · rw [hcursor] at hc
    obtain ⟨call, hmem⟩ := Cursor.mem_of_cursorAt hc
    obtain ⟨hrow, hnote⟩ := mem_newestFirst.mp hmem
    have hrow := (sublist_historyAt call).subset hrow
    exact ⟨hnamed c hrow, hnote, fun v hv hid =>
      nodup_versionId_rows history v ((sublist_historyAt n).subset hv) c hrow hid⟩

theorem cursorAt_eq (n : ℕ) :
    cursorAt store history vaultId fileId limit pruned n =
      Cursor.cursorAt (isNewer store.locale) limit
        (listingAt store history vaultId fileId pruned) n := by
  induction n with
  | zero => rfl
  | succ n ih => exact congrArg List.getLast? (versionsAt_eq htotal hnamed ih)

theorem versionsAt_eq_page :
    versionsAt store history vaultId fileId limit pruned =
      Cursor.page (isNewer store.locale) limit
        (listingAt store history vaultId fileId pruned) :=
  funext fun n => versionsAt_eq htotal hnamed (cursorAt_eq htotal hnamed n)

/-- The session ends. -/
theorem exists_endsAt : ∃ last, EndsAt store history vaultId fileId limit pruned last := by
  unfold EndsAt
  rw [versionsAt_eq_page htotal hnamed]
  exact Cursor.exists_page_eq_nil (shrinks_listingAt htotal)

omit htotal hnamed in
theorem endsAt_unique {last other : ℕ} (h : EndsAt store history vaultId fileId limit pruned last)
    (h' : EndsAt store history vaultId fileId limit pruned other) : last = other := by
  rcases Nat.lt_trichotomy last other with hlt | heq | hgt
  · exact absurd h.1 (h'.2 last hlt)
  · exact heq
  · exact absurd h'.1 (h.2 other hgt)

/-- What the listing at the end has is what the history has of the note. -/
theorem filter_shown (last : ℕ) :
    ((List.range last).flatMap (versionsAt store history vaultId fileId limit pruned)).filter
        (· ∈ (historyAt store history pruned last).rows) =
      (Cursor.shown (isNewer store.locale) limit (listingAt store history vaultId fileId pruned) 0
        last).filter (· ∈ listingAt store history vaultId fileId pruned last) := by
  rw [versionsAt_eq_page htotal hnamed, Cursor.shown, ← List.range_eq_range']
  refine List.filter_congr fun v hv => ?_
  obtain ⟨call, -, hpage⟩ := List.mem_flatMap.mp hv
  have hnote := (mem_newestFirst.mp ((Cursor.page_sublist call).subset hpage)).2
  rw [decide_eq_decide, listingAt, mem_newestFirst, and_iff_left hnote]

/-- A version is lost where the listing has lost it. -/
theorem harmless_iff (last : ℕ) :
    Cursor.Harmless (isNewer store.locale) limit (listingAt store history vaultId fileId pruned)
        0 last ↔
      HarmlessUntil store history vaultId fileId limit pruned last := by
  have hlost : ∀ {call cursor},
      cursorAt store history vaultId fileId limit pruned call = some cursor →
        (cursor ∉ listingAt store history vaultId fileId pruned call ↔
          cursor ∉ (historyAt store history pruned call).rows) := by
    intro call cursor hcursor
    rw [cursorAt_eq htotal hnamed] at hcursor
    obtain ⟨once, hmem⟩ := Cursor.mem_of_cursorAt hcursor
    rw [listingAt, mem_newestFirst, and_iff_left (mem_newestFirst.mp hmem).2]
  simp only [Cursor.Harmless, Cursor.Lost, ← cursorAt_eq htotal hnamed]
  constructor
  · intro hall call hcall cursor hcursor hgone
    have hpos : 0 < call := Nat.pos_of_ne_zero fun hzero => by
      rw [hzero] at hcursor
      cases hcursor
    exact hall call hpos hcall cursor ⟨hcursor, (hlost hcursor).mpr hgone⟩
  · rintro hall call - hcall cursor ⟨hcursor, hgone⟩
    exact hall call hcall cursor hcursor ((hlost hcursor).mp hgone)

end

/-- **Pages show what stays once exactly if each loss is harmless**, and they end in any case. -/
theorem showsEachOnce_iff_lossesHarmless (store : RoomStoreKind) (htotal : store.locale.IsTotal)
    (history : History) (hnamed : ∀ v ∈ history.rows, v.versionId ≠ "") (vaultId fileId : String)
    {limit : ℕ} (hlimit : 1 ≤ limit) (pruned : ℕ → List String) :
    (∃ last, EndsAt store history vaultId fileId limit pruned last) ∧
      (ShowsEachOnce store history vaultId fileId limit pruned ↔
        LossesHarmless store history vaultId fileId limit pruned) := by
  have hends : ∃ last, EndsAt store history vaultId fileId limit pruned last :=
    exists_endsAt htotal hnamed
  obtain ⟨last, hend⟩ := hends
  have hshown : ∀ last, EndsAt store history vaultId fileId limit pruned last →
      (((List.range last).flatMap (versionsAt store history vaultId fileId limit pruned)).filter
          (· ∈ (historyAt store history pruned last).rows) =
        newestFirst store.locale (historyAt store history pruned last) vaultId fileId ↔
      HarmlessUntil store history vaultId fileId limit pruned last) := by
    rintro last ⟨hempty, hpages⟩
    rw [versionsAt_eq_page htotal hnamed] at hempty hpages
    rw [filter_shown htotal hnamed, ← harmless_iff htotal hnamed]
    exact Cursor.shown_filter_eq_iff (shrinks_listingAt htotal) hempty hlimit hpages
  refine ⟨⟨last, hend⟩, ?_, fun hall => ⟨last, hend, (hshown last hend).mpr (hall last hend)⟩⟩
  rintro ⟨other, hother, honce⟩ final hfinal
  obtain rfl := endsAt_unique hother hfinal
  exact (hshown other hother).mp honce

/-- A version of a sample note. -/
def sampleVersion (versionId : String) (createdAt : ℕ) : StoredVersion :=
  { versionId, vaultId := "v", fileId := "f", roomEpoch := 1, seq := createdAt, createdAt,
    reason := .cadence }

/-- Three versions, of which the oldest is the last of a page of three. -/
def sampleHistory : History :=
  ((Table.empty.set (sampleVersion "a" 1)).set (sampleVersion "b" 2)).set (sampleVersion "c" 3)

/-- The collector keeps the current version and the newest of the others, right after the first
page. -/
def samplePruned : ℕ → List String
  | 0 => ["a"]
  | _ => []

theorem showsEachOnce_iff_sampleHistory :
    (∃ last, EndsAt .postgres sampleHistory "v" "f" 2 samplePruned last) ∧
      (ShowsEachOnce .postgres sampleHistory "v" "f" 2 samplePruned ↔
        LossesHarmless .postgres sampleHistory "v" "f" 2 samplePruned) :=
  showsEachOnce_iff_lossesHarmless .postgres isTotal_codePoints sampleHistory
    (by decide +kernel) "v" "f" (by decide) samplePruned

instance (store : RoomStoreKind) (history : History) (vaultId fileId : String) (limit : ℕ)
    (pruned : ℕ → List String) (last : ℕ) :
    Decidable (EndsAt store history vaultId fileId limit pruned last) :=
  inferInstanceAs (Decidable (_ ∧ _))

/-- The second page starts at the top again, in either store. -/
theorem not_showsEachOnce_sampleHistory :
    ¬ ShowsEachOnce (.inMemory codePoints) sampleHistory "v" "f" 3 samplePruned ∧
      ¬ ShowsEachOnce .postgres sampleHistory "v" "f" 3 samplePruned := by
  constructor
  · rintro ⟨last, hend, honce⟩
    obtain rfl : 2 = last := endsAt_unique (by decide +kernel) hend
    exact absurd honce (by decide +kernel)
  · rintro ⟨last, hend, honce⟩
    obtain rfl : 2 = last := endsAt_unique (by decide +kernel) hend
    exact absurd honce (by decide +kernel)

end ObsidianSync
