import ObsidianSync.Client.IndexFile

/-!
# Saves of the index that overlap

The engine starts a save from several handlers and does not wait for it.  Each save takes
the text of the index when it starts; the calls it makes of the adapter take effect later,
between those of other saves, which use the same two files.

## Main definitions

* `SaveSystem`, `SaveEvent`, `saveStep` — the index, the files and the saves under way.
* `SavesKept` — no save has thrown, and where all have finished, the file has the
  snapshot of the one that started last.
* `InTurn` — a call is made by the save that started first of those under way.

## Main results

* `savesKept_run` — runs in which the saves take turns.
-/

namespace ObsidianSync

/-- A save under way: the snapshot it writes, and its next call. -/
structure IndexSave where
  snapshot : IndexSnapshot
  point : SavePoint

/-- The index in memory, the files, the saves under way in the order of their starts, the
snapshot of the one that started last, and how many have thrown. -/
structure SaveSystem where
  index : IndexSnapshot
  files : IndexFiles
  saves : List IndexSave := []
  lastStarted : Option IndexSnapshot := none
  thrown : ℕ := 0

/-- What happens to the index and its file. -/
inductive SaveEvent
  /-- The index is changed. -/
  | change (index : IndexSnapshot)
  /-- `save()`. -/
  | start
  /-- The next call of a save under way takes effect. -/
  | call (position : ℕ)

/-- The index, its file and the saves in progress after an event. -/
def saveStep (adapter : IndexAdapter) (s : SaveSystem) : SaveEvent → SaveSystem
  | .change index => { s with index }
  | .start =>
    { s with
      saves := s.saves ++ [{ snapshot := s.index, point := .writeNext }]
      lastStarted := some s.index }
  | .call position =>
    match s.saves[position]? with
    | none => s
    | some save =>
      match callAdapter adapter save.snapshot.1.stringify s.files save.point with
      | (files, .goesOn point) =>
        { s with files, saves := s.saves.set position { save with point } }
      | (files, .done) => { s with files, saves := s.saves.eraseIdx position }
      | (files, .throws) =>
        { s with files, saves := s.saves.eraseIdx position, thrown := s.thrown + 1 }

/-- No save has thrown, and where all have finished, the file has the snapshot of the one that
started last. -/
structure SavesKept (s : SaveSystem) : Prop where
  none_thrown : s.thrown = 0
  last_saved : s.saves = [] → ∀ snapshot ∈ s.lastStarted,
    s.files.main = some snapshot.1.stringify

/-- The call is made by the save that started first of those under way. -/
def InTurn (_ : SaveSystem) (event : SaveEvent) : Prop :=
  ∀ position, event = .call position → position = 0

/-! ### Saves that take turns -/

/-- What a save that is at a call has done. -/
def ReadyFor (files : IndexFiles) (save : IndexSave) : Prop :=
  match save.point with
  | .writeNext | .writeMain => True
  | .rename _ => files.next = some save.snapshot.1.stringify
  | .removeNext => files.main = some save.snapshot.1.stringify

/-- Where saves take turns, the first one finds the files as it left them, and the others have
made no call. -/
structure TakingTurns (s : SaveSystem) : Prop where
  none_thrown : s.thrown = 0
  ready : ∀ save ∈ s.saves.head?, ReadyFor s.files save
  waiting : ∀ save ∈ s.saves.tail, save.point = .writeNext
  lastStarted : ∀ save ∈ s.saves.getLast?, s.lastStarted = some save.snapshot
  last_saved : s.saves = [] → ∀ snapshot ∈ s.lastStarted,
    s.files.main = some snapshot.1.stringify

theorem TakingTurns.savesKept {s : SaveSystem} (h : TakingTurns s) : SavesKept s :=
  ⟨h.none_thrown, h.last_saved⟩

/-- What becomes of the files and the save in a call that it is ready for. -/
theorem callAdapter_of_ready (adapter : IndexAdapter) {files : IndexFiles} {save : IndexSave}
    (h : ReadyFor files save) :
    (∃ files' point, callAdapter adapter save.snapshot.1.stringify files save.point =
        (files', .goesOn point) ∧ ReadyFor files' { save with point }) ∨
      ∃ files', callAdapter adapter save.snapshot.1.stringify files save.point =
        (files', .done) ∧ files'.main = some save.snapshot.1.stringify := by
  obtain ⟨snapshot, point⟩ := save
  obtain ⟨main, next⟩ := files
  cases point with
  | writeNext =>
    refine Or.inl ⟨_, _, rfl, ?_⟩
    cases adapter.rename with
    | none => trivial
    | some onExisting => rfl
  | rename onExisting =>
    obtain rfl : next = some snapshot.1.stringify := h
    cases main with
    | none => cases onExisting <;> exact Or.inr ⟨_, rfl, rfl⟩
    | some old =>
      cases onExisting with
      | replaces => exact Or.inr ⟨_, rfl, rfl⟩
      | refuses dropsSource => exact Or.inl ⟨_, _, rfl, trivial⟩
  | writeMain =>
    cases hremove : adapter.remove with
    | false =>
      exact Or.inr ⟨⟨some snapshot.1.stringify, next⟩, by simp [callAdapter, hremove], rfl⟩
    | true =>
      exact Or.inl ⟨⟨some snapshot.1.stringify, next⟩, .removeNext,
        by simp [callAdapter, hremove], rfl⟩
  | removeNext => exact Or.inr ⟨_, rfl, h⟩

/-- A save that has made no call finds any files as it needs them. -/
theorem readyFor_writeNext (files : IndexFiles) {save : IndexSave} (h : save.point = .writeNext) :
    ReadyFor files save := by
  rw [ReadyFor, h]
  trivial

/-- The first save makes a call. -/
theorem saveStep_call_zero {adapter : IndexAdapter} {s : SaveSystem} {save : IndexSave}
    {rest : List IndexSave} (hsaves : s.saves = save :: rest) {files : IndexFiles}
    {progress : SaveProgress}
    (hcall : callAdapter adapter save.snapshot.1.stringify s.files save.point =
      (files, progress)) :
    saveStep adapter s (.call 0) =
      match progress with
      | .goesOn point => { s with files, saves := { save with point } :: rest }
      | .done => { s with files, saves := rest }
      | .throws => { s with files, saves := rest, thrown := s.thrown + 1 } := by
  simp only [saveStep, hsaves, List.getElem?_cons_zero, hcall]
  cases progress <;> rfl

/-- Saves go on taking turns. -/
theorem TakingTurns.step (adapter : IndexAdapter) {s : SaveSystem} {event : SaveEvent}
    (h : TakingTurns s) (hturn : InTurn s event) : TakingTurns (saveStep adapter s event) := by
  cases event with
  | change index => exact ⟨h.none_thrown, h.ready, h.waiting, h.lastStarted, h.last_saved⟩
  | start =>
    refine ⟨h.none_thrown, ?_, ?_, ?_, fun hnone => by simp [saveStep] at hnone⟩
    · intro save hsave
      cases hsaves : s.saves with
      | nil =>
        obtain rfl : IndexSave.mk s.index .writeNext = save := by
          simpa [saveStep, hsaves] using hsave
        exact readyFor_writeNext _ rfl
      | cons first rest =>
        obtain rfl : first = save := by simpa [saveStep, hsaves] using hsave
        exact h.ready first (by rw [hsaves]; rfl)
    · intro save hsave
      cases hsaves : s.saves with
      | nil => simp [saveStep, hsaves] at hsave
      | cons first rest =>
        have hmem : save ∈ rest ∨ save = IndexSave.mk s.index .writeNext := by
          simpa [saveStep, hsaves] using hsave
        rcases hmem with hin | rfl
        · exact h.waiting save (by rw [hsaves]; exact hin)
        · rfl
    · intro save hsave
      obtain rfl : IndexSave.mk s.index .writeNext = save := by simpa [saveStep] using hsave
      rfl
  | call position =>
    -- only the first save makes calls; it goes on, or it is over
    obtain rfl := hturn position rfl
    cases hsaves : s.saves with
    | nil =>
      have hsame : saveStep adapter s (.call 0) = s := by simp [saveStep, hsaves]
      rw [hsame]
      exact h
    | cons save rest =>
      have hready : ReadyFor s.files save := h.ready save (by rw [hsaves]; rfl)
      have hwaiting : ∀ other ∈ rest, other.point = .writeNext := by
        simpa [hsaves] using h.waiting
      have hlast := h.lastStarted
      rw [hsaves] at hlast
      -- a call of the first save: it waits for the next one, or the file has its content
      rcases callAdapter_of_ready adapter hready with
        ⟨files, point, hcall, hnext⟩ | ⟨files, hcall, hfile⟩
      · rw [saveStep_call_zero hsaves hcall]
        refine ⟨h.none_thrown, ?_, hwaiting, ?_, fun hnone => by cases hnone⟩
        · rintro other ⟨⟩
          exact hnext
        · cases rest with
          | nil =>
            rintro other ⟨⟩
            exact hlast save rfl
          | cons next rest => exact fun other hother => hlast other hother
      · rw [saveStep_call_zero hsaves hcall]
        refine ⟨h.none_thrown, ?_, ?_, ?_, ?_⟩
        · exact fun other hother =>
            readyFor_writeNext _ (hwaiting other (List.mem_of_mem_head? hother))
        · exact fun other hother => hwaiting other (List.mem_of_mem_tail hother)
        · cases rest with
          | nil => exact fun other hother => by cases hother
          | cons next rest => exact fun other hother => hlast other hother
        · intro hnone snapshot hsnapshot
          obtain rfl : rest = [] := hnone
          obtain rfl : save.snapshot = snapshot :=
            Option.some.inj ((hlast save rfl).symm.trans hsnapshot)
          exact hfile

/-- **Saves that take turns do not disturb each other**, whatever the adapter. -/
theorem savesKept_run (adapter : IndexAdapter) (index : IndexSnapshot) (files : IndexFiles)
    {events : List SaveEvent}
    (hturns : Run.EachStep (saveStep adapter) InTurn { index, files } events) :
    Run.Throughout (saveStep adapter) SavesKept { index, files } events := by
  have hinitial : TakingTurns { index, files } :=
    { none_thrown := rfl
      ready := fun _ h => nomatch h
      waiting := fun _ h => nomatch h
      lastStarted := fun _ h => nomatch h
      last_saved := fun _ _ h => nomatch h }
  exact (Run.throughout_of_invariant (fun _ _ h hturn => h.step adapter hturn) hinitial
    hturns).mono fun _ h => h.savesKept

/-- A snapshot of another device. -/
def otherSnapshot : IndexSnapshot := ⟨defaultSnapshot "d2" none, wellTyped_defaultSnapshot _ _⟩

instance (s : SaveSystem) (event : SaveEvent) : Decidable (InTurn s event) :=
  match event with
  | .call 0 => isTrue fun _ h => by cases h; rfl
  | .call (position + 1) => isFalse fun h => absurd (h _ rfl) (by simp)
  | .change _ | .start => isTrue fun _ h => by cases h

/-- Two saves, the second started while the first is under way; it waits for its turn. -/
def sampleTurns : List SaveEvent :=
  [.start, .call 0, .change otherSnapshot, .start, .call 0, .call 0, .call 0]

theorem savesKept_sampleTurns :
    Run.Throughout (saveStep ⟨some .replaces, true⟩) SavesKept
      { index := sampleIndexSnapshot, files := ⟨none, none⟩ } sampleTurns :=
  savesKept_run _ _ _ ⟨by decide, by decide, by decide, by decide, by decide, by decide,
    by decide, trivial⟩

/-- Two saves that each write the file beside the index before either goes on. -/
def sampleOverlap : List SaveEvent :=
  [.start, .change otherSnapshot, .start, .call 0, .call 1, .call 0, .call 0]

/-- The same, where the file is there and not replaced: the first save writes it last. -/
def sampleOvertaken : List SaveEvent :=
  [.start, .change otherSnapshot, .start, .call 0, .call 1, .call 0, .call 1, .call 1, .call 0,
    .call 0, .call 0]

/-- The texts of two snapshots differ. -/
theorem eq_of_stringify_eq {snapshot other : IndexSnapshot}
    (h : snapshot.1.stringify = other.1.stringify) : snapshot.1 = other.1 := by
  have hload := load_stringify samplePlatform snapshot.1 snapshot none
  rw [h, load_stringify] at hload
  exact (Except.ok.inj hload).symm

theorem sampleIndexSnapshot_ne : sampleIndexSnapshot.1 ≠ otherSnapshot.1 := fun h => by
  have hid : (some (Json.str "d1")) = some (Json.str "d2") :=
    congrArg (fun snapshot => snapshot.device.deviceId) h
  exact absurd (Json.str.inj (Option.some.inj hid)) (by decide)

/-- A save throws where the `rename` of another has taken its file away, and with the adapter of the
app, which does not replace a file, the older snapshot is left. -/
theorem not_savesKept_sampleOverlap :
    ¬ Run.Throughout (saveStep ⟨some .replaces, true⟩) SavesKept
      { index := sampleIndexSnapshot, files := ⟨none, none⟩ } sampleOverlap ∧
    ¬ Run.Throughout (saveStep ⟨some (.refuses false), true⟩) SavesKept
      { index := sampleIndexSnapshot, files := ⟨some sampleIndexSnapshot.1.stringify, none⟩ }
      sampleOvertaken := by
  constructor
  · intro h
    exact absurd h.final.none_thrown (by decide)
  · intro h
    have hsaved := h.final.last_saved rfl otherSnapshot rfl
    exact sampleIndexSnapshot_ne (eq_of_stringify_eq (Option.some.inj hsaved))

end ObsidianSync
