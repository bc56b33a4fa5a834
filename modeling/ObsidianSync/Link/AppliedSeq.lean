import ObsidianSync.Link.System

/-!
# The applied sequence

A client asks for the ops after its applied sequence, so an op at or below it that
was neither applied nor the client's own is lost to it.  A batch of ops only moves
the sequence by one; an ack moves it to its own sequence, wherever that is.

## Main definitions

* `NoneSkipped` — every sequence up to the applied one was applied or acknowledged.
* `AcksInOrder` — no ack runs ahead of the applied sequence.

## Main results

* `noneSkipped_linkStep_iff` — the steps that skip nothing.
* `noneSkipped_iff_acksInOrder` — the runs that do.
-/

namespace ObsidianSync

open Engine

/-- The sequence up to which the client holds all ops. -/
def Link.appliedSeq (l : Link) : ℕ := l.engine.index.device.appliedSeq

/-- Every op up to the applied sequence was applied, or is an acknowledged one of
the client. -/
def NoneSkipped (l : Link) : Prop :=
  ∀ n ≤ l.appliedSeq, 1 ≤ n → n ∈ l.applied ∨ n ∈ l.acked

instance (l : Link) : Decidable (NoneSkipped l) :=
  inferInstanceAs (Decidable (∀ n ≤ l.appliedSeq, 1 ≤ n → n ∈ l.applied ∨ n ∈ l.acked))

/-- An ack that the client takes is at most the next op. -/
def AcksInOrder (l : Link) : LinkEvent → Prop
  | .clientReceive _ =>
    ∀ message ∈ l.down.head?, ∀ vaultSeq ∈ Link.ackedSeq message, vaultSeq ≤ l.appliedSeq + 1
  | _ => True

/-- Nothing past the applied sequence was applied or acknowledged, and a batch
waits for the next op at most. -/
structure SeqBounds (l : Link) : Prop where
  applied : ∀ n ∈ l.applied, n ≤ l.appliedSeq
  acked : ∀ n ∈ l.acked, n ≤ l.appliedSeq
  batches : ∀ batch ∈ l.batches, batch.current.vaultSeq ≤ l.appliedSeq + 1

/-! ### The parts of a step -/

@[simp] theorem appliedSeq_withEngine (l : Link) (e : Engine) :
    (l.withEngine e).appliedSeq = e.index.device.appliedSeq := by
  unfold Link.withEngine
  split <;> rfl

@[simp] theorem applied_withEngine (l : Link) (e : Engine) :
    (l.withEngine e).applied = l.applied := by
  unfold Link.withEngine
  split <;> rfl

@[simp] theorem acked_withEngine (l : Link) (e : Engine) : (l.withEngine e).acked = l.acked := by
  unfold Link.withEngine
  split <;> rfl

@[simp] theorem batches_withEngine (l : Link) (e : Engine) :
    (l.withEngine e).batches = l.batches := by
  unfold Link.withEngine
  split <;> rfl

/-- What the client keeps of the past, and how far it is. -/
structure SamePast (l l' : Link) : Prop where
  appliedSeq : l'.appliedSeq = l.appliedSeq
  applied : l'.applied = l.applied
  acked : l'.acked = l.acked
  batches : l'.batches = l.batches

namespace SamePast

variable {l l' : Link}

theorem refl (l : Link) : SamePast l l := ⟨rfl, rfl, rfl, rfl⟩

theorem withEngine {l : Link} {e : Engine} (h : e.index.device.appliedSeq = l.appliedSeq) :
    SamePast l (l.withEngine e) :=
  ⟨by simpa using h, by simp, by simp, by simp⟩

theorem seqBounds (h : SamePast l l') (hl : SeqBounds l) : SeqBounds l' := by
  constructor
  · rw [h.applied, h.appliedSeq]
    exact hl.applied
  · rw [h.acked, h.appliedSeq]
    exact hl.acked
  · rw [h.batches, h.appliedSeq]
    exact hl.batches

theorem noneSkipped_iff (h : SamePast l l') : NoneSkipped l' ↔ NoneSkipped l := by
  unfold NoneSkipped
  rw [h.appliedSeq, h.applied, h.acked]

end SamePast

/-- The server does not touch the client. -/
theorem samePast_answer (P : Platform) (cfg : ClientConfig) (userId : String) (now : Time)
    (uuid : Uuid) (message : ClientMessage) (l : Link) :
    SamePast l (Link.answer P cfg userId now uuid message l).2 := by
  have hclaim : ∀ (op : FileOp) (l : Link), SamePast l (Link.claimBlob op l) := by
    intro op l
    unfold Link.claimBlob
    split <;> exact ⟨rfl, rfl, rfl, rfl⟩
  cases message with
  | hello deviceId vaultId lastSeq =>
    unfold Link.answer Link.receiveHello
    dsimp only
    split
    · exact .refl l
    split
    · exact .refl l
    split
    · exact .refl l
    split
    · exact .refl l
    · exact ⟨rfl, rfl, rfl, rfl⟩
  | fileOp op =>
    unfold Link.answer Link.receiveFileOp
    dsimp only
    split
    · exact .refl l
    split
    · exact .refl l
    split
    · exact .refl l
    split
    · exact ⟨rfl, rfl, rfl, rfl⟩
    · exact ⟨rfl, rfl, rfl, rfl⟩
    · next r store hresult =>
      obtain ⟨hseq, happlied, hacked, hbatches⟩ :=
        hclaim op { l with store, answers := l.answers ++ [.ack r] }
      exact ⟨hseq, happlied, hacked, hbatches⟩
  | getOps sinceSeq =>
    unfold Link.answer
    dsimp only
    split <;> exact .refl l
  | promote fileId =>
    unfold Link.answer
    dsimp only
    split <;> exact .refl l

theorem samePast_serverReceive (P : Platform) (cfg : ClientConfig) (userId : String) (now : Time)
    (uuid : Uuid) (delivers : ServerMessage → Bool) (l : Link) :
    SamePast l (l.serverReceive P cfg userId now uuid delivers) := by
  unfold Link.serverReceive
  split
  · exact .refl l
  · next message up hup =>
    obtain ⟨hseq, happlied, hacked, hbatches⟩ :=
      samePast_answer P cfg userId now uuid message { l with up }
    exact ⟨hseq, happlied, hacked, hbatches⟩

/-- Apart from messages to the client and from batches, no event moves the
sequence. -/
theorem samePast_linkStep (P : Platform) (cfg : ClientConfig) (userId : String) (l : Link)
    (event : LinkEvent) (hreceive : ∀ now, event ≠ .clientReceive now)
    (hresume : ∀ now place, event ≠ .resume now place) :
    SamePast l (linkStep P cfg userId l event) := by
  cases event with
  | save now opId fileId path bytes =>
    have hsync := sameEntries_syncPath P cfg now opId fileId path
      { l.engine with vault := l.engine.vault.writeBytes path bytes }
    obtain ⟨hseq, happlied, hacked, hbatches⟩ := SamePast.withEngine
      (l := { l with saves := l.saves ++ [(path, bytes)] }) hsync.appliedSeq
    exact ⟨hseq, happlied, hacked, hbatches⟩
  | rename now opId fileId oldPath newPath =>
    exact .withEngine (sameEntries_handleRename P cfg now opId fileId oldPath newPath _).appliedSeq
  | delete now opId path =>
    exact .withEngine (sameEntries_handleDelete P cfg now opId path _).appliedSeq
  | upload hash size =>
    unfold linkStep Link.upload
    dsimp only
    split
    · exact ⟨rfl, rfl, rfl, rfl⟩
    split <;> exact ⟨rfl, rfl, rfl, rfl⟩
  | serverReceive now uuid delivers =>
    exact samePast_serverReceive P cfg userId now uuid delivers l
  | clientReceive now => exact absurd rfl (hreceive now)
  | resume now place => exact absurd rfl (hresume now place)
  | remote event => exact ⟨rfl, rfl, rfl, rfl⟩
  | broadcast place delivers =>
    unfold linkStep Link.broadcast
    dsimp only
    split <;> exact ⟨rfl, rfl, rfl, rfl⟩
  | connect =>
    unfold linkStep Link.connect
    dsimp only
    split
    · exact .refl l
    · exact ⟨((sameEntries_handleTransportState cfg .connecting _).trans
        (sameEntries_handleTransportState cfg .opened _)).appliedSeq, rfl, rfl, rfl⟩
  | disconnect =>
    exact ⟨(sameEntries_handleTransportState cfg .closed l.engine).appliedSeq, rfl, rfl, rfl⟩

/-! ### Messages to the client -/

/-- How far a message moves the sequence: to the acknowledged op. -/
theorem appliedSeq_handleMessage (cfg : ClientConfig) (now : Time) (message : ServerMessage)
    (e : Engine) :
    (handleMessage cfg now message e).1.index.device.appliedSeq
      = (Link.ackedSeq message).foldl max e.index.device.appliedSeq := by
  cases message with
  | welcome currentSeq =>
    unfold handleMessage
    dsimp only
    split
    · rfl
    · exact (sameEntries_finishHandshake now _).appliedSeq
  | ops ops more => exact (sameEntries_goOn now _ more e).appliedSeq
  | opAck opId vaultSeq clocks conflictId =>
    exact (index_handleAck now opId vaultSeq conflictId e).2
  | reject opId code message details =>
    exact (sameEntries_handleReject cfg now opId code message e).appliedSeq
  | conflict conflict =>
    unfold handleMessage LocalIndex.addConflict
    dsimp only
    split <;> rfl
  | conflictState conflictId status =>
    unfold handleMessage
    dsimp only
    split <;> rfl
  | error code message => rfl

/-- A batch that begins waits for the next op, and an ack begins none. -/
theorem batch_handleMessage {cfg : ClientConfig} {now : Time} {message : ServerMessage}
    {e : Engine} {batch : Batch} (h : batch ∈ (handleMessage cfg now message e).2) :
    batch.current.vaultSeq = e.index.device.appliedSeq + 1 ∧ Link.ackedSeq message = [] := by
  cases message with
  | ops ops more => exact ⟨vaultSeq_of_goOn h, rfl⟩
  | welcome currentSeq =>
    unfold handleMessage at h
    dsimp only at h
    split at h <;> simp at h
  | conflictState conflictId status =>
    unfold handleMessage at h
    dsimp only at h
    split at h <;> simp at h
  | opAck | reject | conflict | error => simp [handleMessage] at h

theorem mem_batches_addBatch {l : Link} {batch : Option Batch} {b : Batch} :
    b ∈ (l.addBatch batch).batches ↔ b ∈ l.batches ∨ b ∈ batch := by
  simp [Link.addBatch, Option.mem_def]

section ClientReceive

variable {cfg : ClientConfig} {now : Time} {l : Link} {message : ServerMessage}
  {down : List ServerMessage}

theorem clientReceive_cons (hdown : l.down = message :: down) :
    l.clientReceive cfg now = Link.addBatch
      (Link.withEngine { l with down, acked := l.acked ++ Link.ackedSeq message }
        (handleMessage cfg now message l.engine).1)
      (handleMessage cfg now message l.engine).2 := by
  rw [Link.clientReceive, hdown]

/-- The sequence after a message. -/
theorem appliedSeq_clientReceive (cfg : ClientConfig) (now : Time)
    (hdown : l.down = message :: down) :
    (l.clientReceive cfg now).appliedSeq = (Link.ackedSeq message).foldl max l.appliedSeq := by
  rw [clientReceive_cons hdown]
  exact (appliedSeq_withEngine _ _).trans (appliedSeq_handleMessage cfg now message l.engine)

theorem acked_clientReceive (cfg : ClientConfig) (now : Time)
    (hdown : l.down = message :: down) :
    (l.clientReceive cfg now).acked = l.acked ++ Link.ackedSeq message := by
  rw [clientReceive_cons hdown]
  exact acked_withEngine _ _

theorem applied_clientReceive (cfg : ClientConfig) (now : Time)
    (hdown : l.down = message :: down) :
    (l.clientReceive cfg now).applied = l.applied := by
  rw [clientReceive_cons hdown]
  exact applied_withEngine _ _

theorem ackedSeq_cases (message : ServerMessage) :
    Link.ackedSeq message = [] ∨ ∃ vaultSeq, Link.ackedSeq message = [vaultSeq] := by
  cases message with
  | opAck opId vaultSeq => exact Or.inr ⟨vaultSeq, rfl⟩
  | welcome | ops | reject | conflict | conflictState | error => exact Or.inl rfl

theorem seqBounds_clientReceive (hl : SeqBounds l) : SeqBounds (l.clientReceive cfg now) := by
  cases hdown : l.down with
  | nil =>
    rw [Link.clientReceive, hdown]
    exact hl
  | cons message down =>
    have hseq := appliedSeq_clientReceive cfg now hdown
    have hle : l.appliedSeq ≤ (l.clientReceive cfg now).appliedSeq := by
      rcases ackedSeq_cases message with hack | ⟨n, hack⟩ <;> rw [hseq, hack] <;> simp
    constructor
    · rw [applied_clientReceive cfg now hdown]
      exact fun n hn => (hl.applied n hn).trans hle
    · intro n hn
      rw [acked_clientReceive cfg now hdown, List.mem_append] at hn
      rcases hn with hn | hn
      · exact (hl.acked n hn).trans hle
      · -- the ack itself
        rcases ackedSeq_cases message with hack | ⟨n', hack⟩
        · simp [hack] at hn
        · rw [hack, List.mem_singleton] at hn
          rw [hseq, hack, hn]
          exact le_max_right _ _
    · intro batch hbatch
      rw [clientReceive_cons hdown, mem_batches_addBatch, batches_withEngine] at hbatch
      rcases hbatch with hbatch | hbatch
      · exact (hl.batches batch hbatch).trans (Nat.succ_le_succ hle)
      · have hcur : batch.current.vaultSeq = l.appliedSeq + 1 := (batch_handleMessage hbatch).1
        omega

/-- A message skips nothing exactly if it is not an ack past the next op. -/
theorem noneSkipped_clientReceive_iff (hl : SeqBounds l) (hnone : NoneSkipped l) :
    NoneSkipped (l.clientReceive cfg now) ↔ AcksInOrder l (.clientReceive now) := by
  cases hdown : l.down with
  | nil =>
    rw [Link.clientReceive, hdown]
    exact iff_of_true hnone (by simp [AcksInOrder, hdown])
  | cons message down =>
    have hseq := appliedSeq_clientReceive cfg now hdown
    have hacked := acked_clientReceive cfg now hdown
    have happlied := applied_clientReceive cfg now hdown
    simp only [AcksInOrder, hdown, List.head?_cons, Option.mem_some_iff, forall_eq']
    rcases ackedSeq_cases message with hack | ⟨v, hack⟩
    · simp only [hack, List.foldl_nil, List.append_nil, List.not_mem_nil, false_implies,
        implies_true, iff_true] at hseq hacked ⊢
      unfold NoneSkipped
      rw [hseq, hacked, happlied]
      exact hnone
    · simp only [hack, List.foldl_cons, List.foldl_nil, List.mem_singleton, forall_eq] at hseq ⊢
      rw [hack] at hacked
      unfold NoneSkipped
      rw [hseq, hacked, happlied]
      constructor
      · intro h
        by_contra hgap
        -- the next op was neither applied nor acknowledged
        have hnext := h (l.appliedSeq + 1) (by omega) (by omega)
        rw [List.mem_append, List.mem_singleton] at hnext
        rcases hnext with hn | hn | hn
        · have := hl.applied _ hn
          omega
        · have := hl.acked _ hn
          omega
        · omega
      · intro hle n hn hpos
        rw [List.mem_append, List.mem_singleton]
        by_cases hold : n ≤ l.appliedSeq
        · rcases hnone n hold hpos with h | h
          · exact Or.inl h
          · exact Or.inr (Or.inl h)
        · exact Or.inr (Or.inr (by omega))

end ClientReceive

/-! ### Batches -/

section Resume

variable {P : Platform} {cfg : ClientConfig} {now : Time} {place : ℕ} {l : Link}

/-- A batch moves the sequence to the op it has applied. -/
theorem appliedSeq_resumeBatch (batch : Batch) (e : Engine) :
    (resumeBatch P cfg now batch e).1.index.device.appliedSeq
      = (resumeBatch P cfg now batch e).2.2.toList.foldl max e.index.device.appliedSeq ∧
    (∀ n ∈ (resumeBatch P cfg now batch e).2.2, n = batch.current.vaultSeq) ∧
    ∀ b ∈ (resumeBatch P cfg now batch e).2.1, b.current.vaultSeq
      = (resumeBatch P cfg now batch e).1.index.device.appliedSeq + 1 := by
  unfold resumeBatch
  have happly := appliedSeq_applyOp P cfg now batch.current.op
    batch.current.resultingClocks.contentVV batch.current.resultingClocks.pathClock e
  split
  · next e' hop =>
    rw [hop] at happly
    exact ⟨happly, by simp, by simp⟩
  · next e' hop =>
    rw [hop] at happly
    have hgo := sameEntries_goOn now batch.rest batch.more
      { e' with index := e'.index.setAppliedSeq batch.current.vaultSeq }
    refine ⟨?_, by simp, fun b hb => ?_⟩
    · rw [hgo.appliedSeq, ← happly]
      rfl
    · rw [hgo.appliedSeq]
      exact vaultSeq_of_goOn hb

theorem resume_some {batch : Batch} (hbatch : l.batches[place]? = some batch) :
    l.resume P cfg now place = Link.addBatch
      (Link.withEngine
        { l with
          batches := l.batches.eraseIdx place
          applied := l.applied ++ (resumeBatch P cfg now batch l.engine).2.2.toList }
        (resumeBatch P cfg now batch l.engine).1)
      (resumeBatch P cfg now batch l.engine).2.1 := by
  rw [Link.resume, hbatch]

/-- A batch that goes on keeps the bounds and skips nothing. -/
theorem seqBounds_resume (hl : SeqBounds l) :
    SeqBounds (l.resume P cfg now place) ∧
      (NoneSkipped l → NoneSkipped (l.resume P cfg now place)) := by
  cases hbatch : l.batches[place]? with
  | none =>
    rw [Link.resume, hbatch]
    exact ⟨hl, id⟩
  | some batch =>
    obtain ⟨hseq, hcur, hnext⟩ := appliedSeq_resumeBatch (P := P) batch
      l.engine
    have hmem : batch ∈ l.batches := List.mem_of_getElem? hbatch
    rw [resume_some hbatch]
    generalize resumeBatch P cfg now batch l.engine = r at hseq hcur hnext ⊢
    obtain ⟨e, batch', seq⟩ := r
    have hnow : (Link.addBatch (Link.withEngine
        { l with batches := l.batches.eraseIdx place, applied := l.applied ++ seq.toList } e)
        batch').appliedSeq = seq.toList.foldl max l.appliedSeq :=
      (appliedSeq_withEngine _ _).trans hseq
    have hle : l.appliedSeq ≤ seq.toList.foldl max l.appliedSeq := by
      cases seq <;> simp
    -- the batch waited for the next op at most
    have hbound : ∀ n ∈ seq, n ≤ l.appliedSeq + 1 ∧ seq.toList.foldl max l.appliedSeq
        = max l.appliedSeq n := by
      intro n hn
      rw [Option.mem_def] at hn
      subst hn
      exact ⟨hcur n rfl ▸ hl.batches batch hmem, rfl⟩
    refine ⟨⟨?_, ?_, ?_⟩, ?_⟩
    · intro n hn
      rw [hnow]
      have hn' : n ∈ l.applied ++ seq.toList := by simpa [Link.addBatch] using hn
      rcases List.mem_append.mp hn' with hn' | hn'
      · exact (hl.applied n hn').trans hle
      · rw [(hbound n (by simpa using hn')).2]
        exact le_max_right _ _
    · intro n hn
      rw [hnow]
      exact (hl.acked n (by simpa [Link.addBatch] using hn)).trans hle
    · intro b hb
      rw [mem_batches_addBatch, batches_withEngine] at hb
      rw [hnow]
      rcases hb with hb | hb
      · have := hl.batches b (List.mem_of_mem_eraseIdx hb)
        omega
      · rw [hnext b hb, hseq]
        exact le_rfl
    · intro hnone n hn hpos
      rw [hnow] at hn
      have happlied : (Link.addBatch (Link.withEngine
          { l with batches := l.batches.eraseIdx place, applied := l.applied ++ seq.toList } e)
          batch').applied = l.applied ++ seq.toList := applied_withEngine _ _
      have hacked : (Link.addBatch (Link.withEngine
          { l with batches := l.batches.eraseIdx place, applied := l.applied ++ seq.toList } e)
          batch').acked = l.acked := acked_withEngine _ _
      rw [happlied, hacked, List.mem_append]
      by_cases hold : n ≤ l.appliedSeq
      · rcases hnone n hold hpos with h | h
        · exact Or.inl (Or.inl h)
        · exact Or.inr h
      · cases seq with
        | none => simp only [Option.toList_none, List.foldl_nil] at hn; omega
        | some m =>
          obtain ⟨hm, hmax⟩ := hbound m rfl
          rw [hmax] at hn
          exact Or.inl (Or.inr (by simp; omega))

end Resume

/-! ### Runs -/

section Runs

variable {P : Platform} {cfg : ClientConfig} {userId : String}

theorem seqBounds_linkStep {l : Link} (hl : SeqBounds l) (event : LinkEvent) :
    SeqBounds (linkStep P cfg userId l event) := by
  cases event with
  | clientReceive now => exact seqBounds_clientReceive hl
  | resume now place => exact (seqBounds_resume hl).1
  | save | rename | delete | upload | serverReceive | remote | broadcast | connect | disconnect =>
    exact (samePast_linkStep P cfg userId l _ (by simp) (by simp)).seqBounds hl

/-- **The steps that skip no op.** -/
theorem noneSkipped_linkStep_iff {l : Link} (hl : SeqBounds l) (hnone : NoneSkipped l)
    (event : LinkEvent) :
    NoneSkipped (linkStep P cfg userId l event) ↔ AcksInOrder l event := by
  cases event with
  | clientReceive now => exact noneSkipped_clientReceive_iff hl hnone
  | resume now place => exact iff_of_true ((seqBounds_resume hl).2 hnone) trivial
  | save | rename | delete | upload | serverReceive | remote | broadcast | connect | disconnect =>
    rw [(samePast_linkStep P cfg userId l _ (by simp) (by simp)).noneSkipped_iff]
    exact iff_of_true hnone trivial

/-- **The runs that skip no op.**  From a fresh client, no remote op is skipped in
any state of a run exactly if no ack of it runs ahead of the applied sequence. -/
theorem noneSkipped_iff_acksInOrder (P : Platform) (cfg : ClientConfig) (userId : String)
    (store : Store) (events : List LinkEvent) :
    Run.Throughout (linkStep P cfg userId) NoneSkipped (Link.initial cfg store) events ↔
      Run.EachStep (linkStep P cfg userId) AcksInOrder (Link.initial cfg store) events := by
  refine Run.throughout_iff_eachStep (I := SeqBounds)
    (fun l event hl => seqBounds_linkStep hl event)
    (fun l event hl hnone => noneSkipped_linkStep_iff hl hnone event) events ?_ ?_
  · exact ⟨by simp [Link.initial], by simp [Link.initial], by simp [Link.initial]⟩
  · intro n hn hpos
    have hzero : (Link.initial cfg store).appliedSeq = 0 := rfl
    omega

end Runs

/-! ### A dropped broadcast -/

/-- Another device makes a note, the socket has no room for its broadcast, and the
device saves a note of its own. -/
def droppedBroadcast : List LinkEvent :=
  sampleHandshake ++
  [.remote (.process 2 sampleUuid
      (sampleContentOp .create "o1" "d2" "f1" 1 (some "b.md") (sampleVV "d2" 1) "one")
      (some "u")),
    .broadcast 0 false,
    .save 3 (sampleId 1) (sampleId 2) "a.md" (encodeText "two"),
    .serverReceive 4 sampleUuid (fun _ => true),
    .clientReceive 4]

/-- The ack of its own op takes the device past the one it never got. -/
theorem not_noneSkipped_droppedBroadcast :
    ¬ NoneSkipped (Run.final (linkStep samplePlatform sampleClient "u")
      (Link.initial sampleClient sampleStore) droppedBroadcast) := by
  decide +kernel

end ObsidianSync
