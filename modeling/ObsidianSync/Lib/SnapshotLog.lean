import Mathlib.Order.BoundedOrder.Lattice

/-!
# A document in snapshots and a log

A document that only grows is stored as a snapshot and the numbered updates it has merged since,
and it is loaded by merging the updates that come after the snapshot into it.  It has generations:
a new one starts from a snapshot of its own, and what is stored of the earlier ones is dead.
Updates that a snapshot holds, and dead snapshots, may be deleted at any time.

The statements that write such a document come one at a time, and the document is changed in
memory between them.  What a store shows after each of them is an image: the newest generation of
which anything is stored, its snapshot, the number of its next update, and the document.

## Main definitions

* `SnapshotLog` — the snapshot of each generation, and its updates by their numbers.
* `SnapshotLog.append`, `SnapshotLog.put` — the two writes.
* `SnapshotLog.Collected` — what a collector may leave of a log.
* `SnapshotLog.Image`, `SnapshotLog.Holds` — what is to be seen of a log.

## Main results

* `SnapshotLog.Holds.append`, `Holds.put`, `Holds.begin` — what the writes show.
* `SnapshotLog.Holds.collected` — the collector is not to be seen.
* `SnapshotLog.Holds.load` — loading gives the document.
-/

/-- The snapshot of each generation, with the number of the last update that it holds, and the
updates of each generation by their numbers. -/
structure SnapshotLog (D : Type*) where
  snapshot : ℕ → Option (D × ℕ)
  update : ℕ → ℕ → Option D

namespace SnapshotLog

variable {D : Type*}

/-- Log an update; one that has its number stays. -/
def append (log : SnapshotLog D) (generation number : ℕ) (u : D) : SnapshotLog D where
  snapshot := log.snapshot
  update g n :=
    if g = generation ∧ n = number then (log.update generation number).or (some u)
    else log.update g n

/-- Write the snapshot of a generation. -/
def put (log : SnapshotLog D) (generation : ℕ) (d : D) (through : ℕ) : SnapshotLog D where
  snapshot g := if g = generation then some (d, through) else log.snapshot g
  update := log.update

/-- What a collector may leave of a log while a generation is the newest one: its snapshot, and
the updates that the snapshot does not hold. -/
structure Collected (generation : ℕ) (log left : SnapshotLog D) : Prop where
  snapshot : left.snapshot generation = log.snapshot generation
  snapshots : ∀ {g s}, left.snapshot g = some s → log.snapshot g = some s
  updates : ∀ {g n u}, left.update g n = some u → log.update g n = some u
  covered : ∀ {n u}, log.update generation n = some u → left.update generation n = some u ∨
    ∃ s, log.snapshot generation = some s ∧ n ≤ s.2

/-- What is to be seen of a log. -/
structure Image (D : Type*) where
  /-- The newest generation of which anything is stored. -/
  generation : ℕ
  /-- Its snapshot. -/
  shown : Option (D × ℕ)
  /-- The number of its next update. -/
  next : ℕ
  doc : D

/-- The document of the snapshot. -/
def Image.base [Bot D] (image : Image D) : D := (image.shown.map Prod.fst).getD ⊥

/-! ### What a log shows -/

section

variable [SemilatticeSup D] [OrderBot D]

/-- The log shows the image. -/
structure Holds (log : SnapshotLog D) (image : Image D) : Prop where
  snapshots : ∀ {g s}, log.snapshot g = some s → g ≤ image.generation
  updates : ∀ {g n u}, log.update g n = some u → g ≤ image.generation
  shown : log.snapshot image.generation = image.shown
  next_pos : 0 < image.next
  /-- The snapshot is a part of the document, and holds no number that is still to come. -/
  part : ∀ {s}, image.shown = some s → s.1 ≤ image.doc ∧ s.2 < image.next
  merged : ∀ {n u}, log.update image.generation n = some u →
    u ≤ image.doc ∧ 0 < n ∧ n < image.next
  /-- The snapshot holds the updates it says. -/
  covered : ∀ {n u s}, log.update image.generation n = some u → image.shown = some s → n ≤ s.2 →
    u ≤ s.1
  /-- Nothing of the document is missing. -/
  complete : ∀ {d}, image.base ≤ d →
    (∀ {n u}, log.update image.generation n = some u → u ≤ d) → image.doc ≤ d

variable {log : SnapshotLog D} {image : Image D}

theorem Holds.base_le (h : Holds log image) : image.base ≤ image.doc := by
  unfold Image.base
  cases hshown : image.shown with
  | none => exact bot_le
  | some s => exact (h.part hshown).1

/-- A log without anything, before the first generation. -/
theorem holds_empty {next : ℕ} (hnext : 0 < next) :
    Holds (⟨fun _ => none, fun _ _ => none⟩ : SnapshotLog D) ⟨0, none, next, ⊥⟩ where
  snapshots := nofun
  updates := nofun
  shown := rfl
  next_pos := hnext
  part := nofun
  merged := nofun
  covered := nofun
  complete _ _ := bot_le

/-- The next update is logged and merged. -/
theorem Holds.append (h : Holds log image) (u : D) :
    Holds (log.append image.generation image.next u)
      { image with next := image.next + 1, doc := image.doc ⊔ u } := by
  have hfresh : log.update image.generation image.next = none := by
    cases hupdate : log.update image.generation image.next with
    | none => rfl
    | some v => exact absurd (h.merged hupdate).2.2 (Nat.lt_irrefl _)
  have hcases : ∀ {g n v}, (log.append image.generation image.next u).update g n = some v →
      g = image.generation ∧ n = image.next ∧ v = u ∨ log.update g n = some v := by
    intro g n v hupdate
    unfold SnapshotLog.append at hupdate
    dsimp only at hupdate
    split at hupdate
    · next hsame =>
      rw [hfresh] at hupdate
      exact Or.inl ⟨hsame.1, hsame.2, (Option.some.inj hupdate).symm⟩
    · exact Or.inr hupdate
  refine ⟨h.snapshots, fun hupdate => ?_, h.shown, Nat.succ_pos _, fun hshown => ?_,
    fun hupdate => ?_, fun hupdate hshown hle => ?_, fun hbase hupdates => ?_⟩
  · rcases hcases hupdate with ⟨rfl, -, -⟩ | hold
    · exact Nat.le_refl _
    · exact h.updates hold
  · exact ⟨(h.part hshown).1.trans le_sup_left, Nat.lt_succ_of_lt (h.part hshown).2⟩
  · rcases hcases hupdate with ⟨-, rfl, rfl⟩ | hold
    · exact ⟨le_sup_right, h.next_pos, Nat.lt_succ_self _⟩
    · obtain ⟨hle, hpos, hlt⟩ := h.merged hold
      exact ⟨hle.trans le_sup_left, hpos, Nat.lt_succ_of_lt hlt⟩
  · rcases hcases hupdate with ⟨-, rfl, -⟩ | hold
    · exact absurd hle (Nat.not_le.mpr (h.part hshown).2)
    · exact h.covered hold hshown hle
  · refine sup_le (h.complete hbase fun {n v} hold => ?_) ?_
    · refine hupdates (n := n) ?_
      unfold SnapshotLog.append
      dsimp only
      split
      · next hsame =>
        rw [← hsame.2, hold]
        rfl
      · exact hold
    · refine hupdates (n := image.next) ?_
      simp [SnapshotLog.append, hfresh]

/-- A snapshot of a document that has grown, if by anything, without updates. -/
theorem Holds.put (h : Holds log image) {d : D} {through : ℕ} (hd : image.doc ≤ d)
    (hthrough : through < image.next) :
    Holds (log.put image.generation d through)
      { image with shown := some (d, through), doc := d } := by
  refine ⟨fun {g s} hsnapshot => ?_, h.updates, if_pos rfl, h.next_pos, fun hshown => ?_,
    fun hupdate => ?_, fun hupdate hshown _ => ?_, fun hbase _ => hbase⟩
  · unfold SnapshotLog.put at hsnapshot
    dsimp only at hsnapshot
    split at hsnapshot
    · next hsame => exact Nat.le_of_eq hsame
    · exact h.snapshots hsnapshot
  · obtain rfl := Option.some.inj hshown
    exact ⟨le_refl _, hthrough⟩
  · exact ⟨(h.merged hupdate).1.trans hd, (h.merged hupdate).2⟩
  · obtain rfl := Option.some.inj hshown
    exact (h.merged hupdate).1.trans hd

/-- Of a new generation nothing is stored. -/
theorem Holds.begin (h : Holds log image) {generation next : ℕ}
    (hlater : image.generation < generation) (hnext : 0 < next) :
    Holds log ⟨generation, none, next, ⊥⟩ := by
  have hupdate : ∀ {n u}, log.update generation n ≠ some u := fun hsome =>
    Nat.not_lt.mpr (h.updates hsome) hlater
  refine ⟨fun hsnapshot => (h.snapshots hsnapshot).trans hlater.le,
    fun hsome => (h.updates hsome).trans hlater.le, ?_, hnext, nofun,
    fun hsome => absurd hsome hupdate, fun hsome => absurd hsome hupdate, fun _ _ => bot_le⟩
  cases hsnapshot : log.snapshot generation with
  | none => rfl
  | some s => exact absurd hlater (Nat.not_lt.mpr (h.snapshots hsnapshot))

/-- **The collector is not to be seen.** -/
theorem Holds.collected (h : Holds log image) {left : SnapshotLog D}
    (hleft : Collected image.generation log left) : Holds left image where
  snapshots hsnapshot := h.snapshots (hleft.snapshots hsnapshot)
  updates hupdate := h.updates (hleft.updates hupdate)
  shown := hleft.snapshot.trans h.shown
  next_pos := h.next_pos
  part := h.part
  merged hupdate := h.merged (hleft.updates hupdate)
  covered hupdate := h.covered (hleft.updates hupdate)
  complete := by
    intro d hbase hupdates
    refine h.complete hbase fun {n u} hupdate => ?_
    rcases hleft.covered hupdate with hkept | ⟨s, hsnapshot, hle⟩
    · exact hupdates hkept
    · -- the snapshot has it
      have hshown := h.shown.symm.trans hsnapshot
      refine (h.covered hupdate hshown hle).trans (le_trans (le_of_eq ?_) hbase)
      rw [Image.base, hshown]
      rfl

/-! ### Loading -/

omit [OrderBot D] in
theorem le_foldl_sup (us : List D) (d : D) : d ≤ us.foldl (· ⊔ ·) d := by
  induction us generalizing d with
  | nil => exact le_refl d
  | cons u us ih => exact le_sup_left.trans (ih (d ⊔ u))

omit [OrderBot D] in
theorem le_foldl_sup_of_mem {us : List D} {u : D} (hu : u ∈ us) (d : D) :
    u ≤ us.foldl (· ⊔ ·) d := by
  induction us generalizing d with
  | nil => exact absurd hu List.not_mem_nil
  | cons v us ih =>
    rcases List.mem_cons.mp hu with rfl | hu
    · exact le_sup_right.trans (le_foldl_sup us _)
    · exact ih hu _

omit [OrderBot D] in
theorem foldl_sup_le {us : List D} {d e : D} (hd : d ≤ e) (hus : ∀ u ∈ us, u ≤ e) :
    us.foldl (· ⊔ ·) d ≤ e := by
  induction us generalizing d with
  | nil => exact hd
  | cons u us ih =>
    exact ih (sup_le hd (hus u List.mem_cons_self)) fun v hv => hus v (List.mem_cons_of_mem _ hv)

/-- **Loading gives the document**: merge the updates after the snapshot into it, in any order. -/
theorem Holds.load (h : Holds log image) {us : List D}
    (hus : ∀ u ∈ us, ∃ n, log.update image.generation n = some u)
    (hall : ∀ {n u}, log.update image.generation n = some u →
      (image.shown.map Prod.snd).getD 0 < n → u ∈ us) :
    us.foldl (· ⊔ ·) image.base = image.doc := by
  apply le_antisymm
  · refine foldl_sup_le h.base_le fun u hu => ?_
    obtain ⟨n, hupdate⟩ := hus u hu
    exact (h.merged hupdate).1
  · refine h.complete (le_foldl_sup us _) fun {n u} hupdate => ?_
    cases hshown : image.shown with
    | none =>
      refine le_foldl_sup_of_mem (hall hupdate ?_) _
      rw [hshown]
      exact (h.merged hupdate).2.1
    | some s =>
      rcases Nat.lt_or_ge s.2 n with hlater | hle
      · refine le_foldl_sup_of_mem (hall hupdate ?_) _
        rw [hshown]
        exact hlater
      · refine (h.covered hupdate hshown hle).trans (le_trans (le_of_eq ?_) (le_foldl_sup us _))
        rw [Image.base, hshown]
        rfl

end

end SnapshotLog
