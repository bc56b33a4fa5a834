import ObsidianSync.Room.Delivery
import ObsidianSync.Room.Tables

/-!
# The room manager over its tables

The room manager runs over the tables of `PgYjsRoomStore`, whose statements take effect one at a
time.  Between them the collector may come, and after any of them the process may die: then the
room in memory is gone, and what the call was about to write is not written.

Whatever the server has shown a client of an incarnation of the room, an update that it
acknowledged or relayed or the document itself, is in the document a restart loads.  That holds as
long as no crash leaves the tables half written: between the row of an update and the row of the
room that counts it, or between the row of a room that is activated and its snapshot.

## Main definitions

* `RoomStatement`, `StoreCall.statements` — the statements of the calls on the stores.
* `PgRoomServer`, `PgRoomEvent`, `pgRoomStep` — the server over the tables.
* `RoomEvent.told` — what the messages of a call show of the document.
* `Recovers` — what a restart gives back.

## Main results

* `leadsTo_storeCalls` — after each statement of a call the tables hold the room, unless they are
  half written, and after the last one they hold what the call leaves.
* `recovers_run` — **in every run whose crashes leave the tables whole, a restart at any moment
  gives back the room, and nothing is lost that a client was shown.**
-/

namespace ObsidianSync

/-! ### Statements of calls -/

/-- A statement on the data store, or on the tables of the room. -/
inductive RoomStatement (D : Type)
  | data (call : StoreCall D)
  | tables (statement : PgStatement D)

section

variable {D : Type}

/-- The statements of a call on a store. -/
def StoreCall.statements : StoreCall D → List (RoomStatement D)
  | .saveRoom room => [.tables (.saveRoom room.row)]
  | .appendUpdate update => [.tables (.appendUpdate update)]
  | .saveSnapshot version =>
    [.tables (.upsertSnapshot
      { roomEpoch := version.roomEpoch, snapshot := version.snapshot,
        compactedThroughSeq := version.seq }),
     .tables (.insertVersion version)]
  | .deleteUpdatesThrough roomEpoch seq => [.tables (.deleteUpdatesThrough roomEpoch seq)]
  | call => [.data call]

/-- The statements of calls, in their order. -/
def statementsOf (calls : StoreCalls D) : List (RoomStatement D) :=
  calls.flatMap fun call => call.1.statements

/-- The tables of the rooms after a statement. -/
def RoomStatement.runTables (tables : PgYjsTables D) : RoomStatement D → PgYjsTables D
  | .data _ => tables
  | .tables statement => tables.run statement

/-- The tables after statements, before each of which the collector may come. -/
def runAll : List (List CollectorStatement) → List (RoomStatement D) → PgYjsTables D →
    PgYjsTables D
  | _, [], tables => tables
  | between, statement :: statements, tables =>
    runAll between.tail statements
      (statement.runTables (tables.collected (between.headD [])))

variable [SemilatticeSup D] [OrderBot D] (cfg : RoomConfig D)

/-- The data store after a statement. -/
def RoomStatement.runData (data : Store) : RoomStatement D → Store
  | .data call => call.runData cfg data
  | .tables _ => data

/-! ### What clients are shown -/

omit [SemilatticeSup D] [OrderBot D] in
/-- What a message shows of the document of an incarnation. -/
def RoomMessage.told : RoomMessage D → List (ℕ × D)
  | .roomState roomEpoch document => [(roomEpoch, document)]
  | .yjsUpdate roomEpoch _ update _ => [(roomEpoch, update)]
  | _ => []

omit [SemilatticeSup D] [OrderBot D] in
/-- What messages show, of which an acknowledgement is about the given update. -/
def toldBy (acknowledged : Option D) (sent : List (RoomSink × RoomMessage D)) : List (ℕ × D) :=
  sent.flatMap fun message =>
    match message.2 with
    | .yjsAck roomEpoch _ _ => (acknowledged.map fun update => (roomEpoch, update)).toList
    | message => message.told

/-- What the messages of a call show.  Nobody is behind: others are shown less. -/
def RoomEvent.told (r : Room D) : RoomEvent D → List (ℕ × D)
  | .promote now clientID deviceId userId connection =>
    match (r.promote cfg now clientID deviceId userId connection).result with
    | .ok message => message.told
    | .error _ => []
  | .handleUpdate now deviceId userId roomEpoch updateId update =>
    toldBy (some update)
      (r.handleUpdate cfg ready now deviceId userId roomEpoch updateId update).sent
  | .handleSync deviceId roomEpoch stateVector =>
    toldBy none (r.handleSync cfg deviceId roomEpoch stateVector).sent
  | .heartbeat now deviceId roomEpoch => toldBy none (r.heartbeat cfg now deviceId roomEpoch).sent
  | .leave deviceId roomEpoch => toldBy none (r.leave deviceId roomEpoch).sent
  | .demote now uuid deviceId roomEpoch reason =>
    toldBy none (r.demote cfg ready now uuid deviceId roomEpoch reason).sent
  | .closeDeleted => toldBy none (r.closeDeleted cfg ready).sent
  | .closingTimer now uuid => toldBy none (r.closingTimer cfg ready now uuid).sent
  | .sweepExpired now uuid => toldBy none (r.sweepExpired cfg ready now uuid).sent
  | .closeAll now uuid reason => toldBy none (r.closeAll cfg ready now uuid reason).sent
  | .restoreHistoryVersion now uuid clientID deviceId userId versionId requestId =>
    toldBy none (r.restoreHistoryVersion cfg ready now uuid clientID deviceId userId versionId
      requestId).sent
  | .layer1 _ | .disconnect _ | .compact .. | .restart => []

/-! ### The server -/

/-- The server over the tables, with what clients were shown. -/
structure PgRoomServer (D : Type) where
  data : Store
  tables : PgYjsTables D := {}
  runtime : Option (RuntimeRoom D) := none
  told : List (ℕ × D) := []

/-- A call, with the statements of the collector between its own; the process dies after so many
statements of one; and the collector. -/
inductive PgRoomEvent (D : Type)
  | call (e : RoomEvent D) (between : List (List CollectorStatement))
  | crash (e : RoomEvent D) (between : List (List CollectorStatement)) (statements : ℕ)
  | collect (statement : CollectorStatement)

omit [SemilatticeSup D] [OrderBot D] in
/-- The versions as a call sees them: one that was pruned is not found. -/
def PgYjsTables.versions (tables : PgYjsTables D) : RoomEvent D → List (YjsSnapshotVersion D)
  | .restoreHistoryVersion _ _ _ _ _ versionId _ =>
    if versionId ∈ tables.pruned then [] else tables.history
  | _ => tables.history

omit [SemilatticeSup D] [OrderBot D] in
/-- A restore finds its version as the tables have it. -/
theorem getSnapshotVersion_versions (tables : PgYjsTables D) (now : Time) (uuid : Uuid)
    (clientID : ℕ) (deviceId userId : String) (versionId : ℕ) (requestId : String) :
    ({ history := tables.versions (.restoreHistoryVersion now uuid clientID deviceId userId
        versionId requestId) } : YjsRoomStore D).getSnapshotVersion versionId
      = tables.getSnapshotVersion versionId := by
  unfold PgYjsTables.versions PgYjsTables.getSnapshotVersion YjsRoomStore.getSnapshotVersion
  dsimp only
  split
  · exact List.getElem?_nil
  · rfl

/-- The room a call finds, loaded if it is not in memory, and the tables then. -/
def PgRoomServer.finds (s : PgRoomServer D) (e : RoomEvent D)
    (between : List (List CollectorStatement)) : Option (PgYjsTables D × Room D) :=
  let roomStore : YjsRoomStore D := { history := s.tables.versions e }
  match s.runtime with
  | some runtime =>
    (e.finds { data := s.data, roomStore, runtime := some runtime }).map fun r => (s.tables, r)
  | none =>
    (e.finds { data := s.data, roomStore, runtime := none }).map fun r =>
      ((s.tables.collected (between.headD [])).collected (between.tail.headD []),
        { r with runtime :=
            s.tables.loadRuntime (between.headD []) (between.tail.headD []) })

/-- The server after an event. -/
def pgRoomStep (s : PgRoomServer D) : PgRoomEvent D → PgRoomServer D
  | .call (.layer1 event) _ => { s with data := serverStep cfg.platform s.data event }
  | .call .restart _ => { s with runtime := none }
  | .call e between =>
    match s.finds e between with
    | none => s
    | some (tables, r) =>
      { data := (e.room cfg r).data
        tables := runAll (between.drop 2) (statementsOf (storeCalls cfg r e)) tables
        runtime := some (e.room cfg r).runtime
        told := s.told ++ e.told cfg r }
  | .crash e between statements =>
    match s.finds e between with
    | none => { s with runtime := none }
    | some (tables, r) =>
      let made := (statementsOf (storeCalls cfg r e)).take statements
      { data := made.foldl (fun data statement => statement.runData cfg data) r.data
        tables := runAll (between.drop 2) made tables
        runtime := none
        told := s.told }
  | .collect statement => { s with tables := s.tables.collect statement }

/-! ### Statements one after the other -/

omit [SemilatticeSup D] [OrderBot D] in
/-- The statements lead from `P` to `Q`, and after each of them `J` holds. -/
structure Along (J P : PgYjsTables D → Prop) (statements : List (RoomStatement D))
    (Q : PgYjsTables D → Prop) : Prop where
  final : ∀ between tables, P tables → Q (runAll between statements tables)
  every : ∀ between tables k, P tables → J (runAll between (statements.take k) tables)

omit [SemilatticeSup D] [OrderBot D] in
/-- The collector keeps it. -/
def Collectable (P : PgYjsTables D → Prop) : Prop :=
  ∀ tables statement, P tables → P (tables.collect statement)

section

variable {J P Q R : PgYjsTables D → Prop} {statements more : List (RoomStatement D)}

omit [SemilatticeSup D] [OrderBot D]

theorem Collectable.collected (hP : Collectable P) {tables : PgYjsTables D} (h : P tables)
    (statements : List CollectorStatement) : P (tables.collected statements) := by
  induction statements generalizing tables with
  | nil => exact h
  | cons statement statements ih => exact ih (hP tables statement h)

theorem Along.nil (hJ : ∀ tables, P tables → J tables) : Along J P [] P where
  final _ _ h := h
  every _ tables k h := by
    rw [List.take_nil]
    exact hJ tables h

theorem Along.cons {statement : RoomStatement D} (hP : Collectable P)
    (hJ : ∀ tables, P tables → J tables)
    (hrun : ∀ tables, P tables → Q (statement.runTables tables)) (h : Along J Q statements R) :
    Along J P (statement :: statements) R where
  final between tables hstart := h.final _ _ (hrun _ (hP.collected hstart _))
  every between tables k hstart := by
    cases k with
    | zero => exact hJ tables hstart
    | succ k => exact h.every between.tail _ k (hrun _ (hP.collected hstart _))

/-- A statement on the data store. -/
theorem Along.data {call : StoreCall D} (hP : Collectable P) (hJ : ∀ tables, P tables → J tables)
    (h : Along J P statements R) : Along J P (.data call :: statements) R :=
  h.cons hP hJ fun _ h => h

theorem runAll_append (between : List (List CollectorStatement)) (tables : PgYjsTables D) :
    runAll between (statements ++ more) tables
      = runAll (between.drop statements.length) more (runAll between statements tables) := by
  induction statements generalizing between tables with
  | nil => rfl
  | cons statement statements ih =>
    rw [List.cons_append, runAll, ih, runAll, List.length_cons, List.drop_tail]

theorem Along.append (h : Along J P statements Q) (hmore : Along J Q more R) :
    Along J P (statements ++ more) R where
  final between tables hstart := by
    rw [runAll_append]
    exact hmore.final _ _ (h.final _ _ hstart)
  every between tables k hstart := by
    rcases Nat.le_total k statements.length with hle | hle
    · rw [List.take_append_of_le_length hle]
      exact h.every between tables k hstart
    · obtain ⟨j, rfl⟩ := Nat.exists_eq_add_of_le hle
      rw [List.take_length_add_append, runAll_append]
      exact hmore.every _ _ j (h.final _ _ hstart)

end

/-! ### After each statement -/

/-- The document of the incarnation has grown, if it has changed, or there is a later one. -/
def Follows (epoch : ℕ) (doc : D) (epoch' : ℕ) (doc' : D) : Prop :=
  epoch' = epoch ∧ doc ≤ doc' ∨ epoch < epoch'

/-- If the tables are whole, they are those of a room that follows. -/
def Endures (epoch : ℕ) (doc : D) (tables : PgYjsTables D) : Prop :=
  Whole tables → ∃ persisted doc', StoredAs persisted doc' tables ∧
    Follows epoch doc persisted.epoch doc'

/-- An update is logged that the row of the room does not count. -/
structure Uncounted (row : YjsRoomRow) (image : SnapshotLog.Image D) (tables : PgYjsTables D) :
    Prop extends ShowsRoom row image tables where
  logged : ∃ u, tables.log.update image.generation row.nextSeq = some u

section

variable {row : YjsRoomRow} {image : SnapshotLog.Image D} {tables : PgYjsTables D}
  {persisted : PersistedYjsRoom D} {doc : D} {epoch : ℕ}

omit [OrderBot D] in
theorem Follows.refl (epoch : ℕ) (doc : D) : Follows epoch doc epoch doc :=
  Or.inl ⟨rfl, le_refl doc⟩

theorem collectable_showsRoom (row : YjsRoomRow) (image : SnapshotLog.Image D) :
    Collectable (ShowsRoom row image) :=
  fun _ statement h => h.collect statement

theorem collectable_storedAs (persisted : PersistedYjsRoom D) (doc : D) :
    Collectable (StoredAs persisted doc) :=
  fun _ statement h => h.collect statement

/-- The collector leaves an update that the snapshot does not hold. -/
theorem collectable_uncounted (hshown : ∀ s, image.shown = some s → s.2 < row.nextSeq) :
    Collectable (Uncounted row image) := by
  intro tables statement h
  refine ⟨h.toShowsRoom.collect statement, ?_⟩
  obtain ⟨u, hlogged⟩ := h.logged
  have hleft := tables.collected_collect (h.stored.symm ▸ h.le) statement
  rcases hleft.covered hlogged with hkept | ⟨s, hsnapshot, hle⟩
  · exact ⟨u, hkept⟩
  · have hlt := hshown s (h.holds.shown.symm.trans hsnapshot)
    exact absurd hle (Nat.not_le.mpr hlt)

theorem endures_of_storedAs {persisted' : PersistedYjsRoom D} {doc' : D}
    (hfollows : Follows epoch doc persisted'.epoch doc') (h : StoredAs persisted' doc' tables) :
    Endures epoch doc tables :=
  fun _ => ⟨persisted', doc', h, hfollows⟩

theorem endures_of_showsRoom (hepoch : row.roomEpoch = image.generation)
    (hseeded : row.active = true → row.seeded = true)
    (hunseeded : row.seeded = false → image.doc ≤ image.base)
    (hfollows : Follows epoch doc image.generation image.doc) (h : ShowsRoom row image tables) :
    Endures epoch doc tables :=
  fun hwhole =>
    have hrow : Follows epoch doc row.roomEpoch image.doc := hepoch ▸ hfollows
    ⟨_, _, h.storedAs_of_whole hepoch hseeded hunseeded hwhole, hrow⟩

/-- An update that is not counted leaves the tables half written. -/
theorem endures_of_uncounted (hepoch : row.roomEpoch = image.generation)
    (h : Uncounted row image tables) : Endures epoch doc tables := by
  intro hwhole
  obtain ⟨u, hlogged⟩ := h.logged
  obtain ⟨update, hget, rfl⟩ := Option.map_eq_some_iff.mp hlogged
  have hkey := Table.key_of_get? hget
  obtain ⟨hsame, hseq⟩ := Prod.mk.inj hkey
  have hlt := hwhole.updates update (Table.mem_of_get? hget)
  rw [h.stored, hseq] at hlt
  exact absurd (hlt (hsame.trans hepoch.symm)) (Nat.lt_irrefl _)

/-- So does an activation without its snapshot. -/
theorem endures_of_unseeded (hepoch : row.roomEpoch = image.generation)
    (hseeded : row.seeded = true) (hshown : image.shown = none) (h : ShowsRoom row image tables) :
    Endures epoch doc tables := by
  intro hwhole
  obtain ⟨snapshot, hmem, hsame⟩ := hwhole.seeded (by rw [h.stored, hseeded])
  have hget := Table.get?_key hmem
  rw [hsame, h.stored, hepoch] at hget
  have hnone := h.holds.shown
  rw [hshown] at hnone
  simp only [PgYjsTables.log, hget, Option.map_some] at hnone
  cases hnone

end

/-! ### Pieces of calls -/

section

variable {J P : PgYjsTables D → Prop} {row : YjsRoomRow} {image : SnapshotLog.Image D}
  {epoch : ℕ} {doc : D}

/-- The room is saved, of which everything else is stored. -/
theorem along_saveRuntimeCalls {runtime : RuntimeRoom D} {doc' : D} (hP : Collectable P)
    (hJ : ∀ tables, P tables → Endures epoch doc tables)
    (hshows : ∀ tables, P tables → ∃ row, ShowsRoom row (runtime.persisted.image doc') tables)
    (hsound : RoomSound runtime.persisted doc')
    (hfollows : Follows epoch doc runtime.persisted.epoch doc') :
    Along (Endures epoch doc) P (statementsOf (saveRuntimeCalls runtime))
      (StoredAs runtime.persisted doc') := by
  have hsaved : ∀ tables, P tables → StoredAs runtime.persisted doc'
      (tables.run (.saveRoom runtime.persisted.row)) := by
    intro tables h
    obtain ⟨row, hrow⟩ := hshows tables h
    exact ⟨hsound, hrow.saveRoom hrow.holds.next_pos (Nat.le_refl _), nofun⟩
  have hstored := collectable_storedAs runtime.persisted doc'
  have hendures : ∀ tables, StoredAs runtime.persisted doc' tables → Endures epoch doc tables :=
    fun _ => endures_of_storedAs hfollows
  exact .cons hP hJ hsaved (.data hstored hendures (.nil hendures))

/-- A snapshot is taken of a room that is stored. -/
theorem along_snapshotCall {runtime memory : RuntimeRoom D} {now : Time} {seq : ℕ}
    {reason : SnapshotHistoryReason} {deviceId userId : Option String} (hP : Collectable P)
    (hJ : ∀ tables, P tables → Endures epoch doc tables)
    (hshows : ∀ tables, P tables → ShowsRoom row image tables)
    (hgeneration : runtime.persisted.epoch = image.generation) (hdoc : image.doc ≤ runtime.doc)
    (hseq : seq < image.next) (hepoch : row.roomEpoch = image.generation)
    (hseeded : row.active = true → row.seeded = true)
    (hfollows : Follows epoch doc image.generation runtime.doc) :
    Along (Endures epoch doc) P
      (statementsOf [(snapshotCall runtime now seq reason deviceId userId, memory)])
      (ShowsRoom row { image with shown := some (runtime.doc, seq), doc := runtime.doc }) := by
  have hshown := collectable_showsRoom row
    { image with shown := some (runtime.doc, seq), doc := runtime.doc }
  have hendures : ∀ tables, ShowsRoom row
      { image with shown := some (runtime.doc, seq), doc := runtime.doc } tables →
        Endures epoch doc tables :=
    fun _ => endures_of_showsRoom hepoch hseeded (fun _ => le_refl _) hfollows
  refine .cons hP hJ (fun tables h => ?_)
    (.cons hshown hendures (fun tables h => h.insertVersion _) (.nil hendures))
  exact (hshows tables h).upsertSnapshot ⟨runtime.persisted.epoch, runtime.doc, seq⟩ hgeneration
    hdoc hseq

/-- An update is logged. -/
theorem along_appendUpdate {persisted : PersistedYjsRoom D} {doc' : D}
    {update : StoredYjsUpdate D} {memory : RuntimeRoom D}
    (hfollows : Follows epoch doc persisted.epoch doc')
    (hepoch : update.roomEpoch = persisted.epoch) (hseq : update.seq = persisted.nextSeq) :
    Along (Endures epoch doc) (StoredAs persisted doc')
      (statementsOf [(.appendUpdate update, memory)])
      (Uncounted persisted.row
        { persisted.image doc' with
          next := persisted.nextSeq + 1
          doc := doc' ⊔ update.update }) := by
  refine .cons (collectable_storedAs _ _) (fun _ => endures_of_storedAs hfollows)
    (fun tables h => ⟨h.shows.appendUpdate update hepoch hseq, update.update, ?_⟩)
    (.nil fun _ => endures_of_uncounted rfl)
  have hfresh : tables.log.update persisted.epoch persisted.nextSeq = none := by
    cases hupdate : tables.log.update persisted.epoch persisted.nextSeq with
    | none => rfl
    | some u => exact absurd (h.shows.holds.merged hupdate).2.2 (Nat.lt_irrefl _)
  show (tables.run (.appendUpdate update)).log.update persisted.epoch persisted.nextSeq = _
  rw [PgYjsTables.log_appendUpdate, hepoch, hseq]
  simp [SnapshotLog.append, hfresh]

omit [SemilatticeSup D] [OrderBot D] in
theorem Along.mono_final {Q R : PgYjsTables D → Prop} {statements : List (RoomStatement D)}
    (h : Along J P statements Q) (hQR : ∀ tables, Q tables → R tables) :
    Along J P statements R :=
  ⟨fun between tables hstart => hQR _ (h.final between tables hstart), h.every⟩

omit [SemilatticeSup D] [OrderBot D] in
theorem statementsOf_append (calls more : StoreCalls D) :
    statementsOf (calls ++ more) = statementsOf calls ++ statementsOf more :=
  List.flatMap_append

omit [SemilatticeSup D] [OrderBot D] in
theorem statementsOf_cons (call : StoreCall D × RuntimeRoom D) (calls : StoreCalls D) :
    statementsOf (call :: calls) = statementsOf [call] ++ statementsOf calls :=
  statementsOf_append [call] calls

end

/-! ### Calls -/

/-- The calls lead from the room to another one, and the tables endure each of them. -/
structure LeadsTo (epoch : ℕ) (doc : D) (runtime : RuntimeRoom D) (calls : StoreCalls D)
    (runtime' : RuntimeRoom D) : Prop where
  along : Along (Endures epoch doc) (StoredAs runtime.persisted runtime.doc) (statementsOf calls)
    (StoredAs runtime'.persisted runtime'.doc)
  follows : Follows epoch doc runtime'.persisted.epoch runtime'.doc

section

variable {epoch : ℕ} {doc : D} {runtime runtime' last : RuntimeRoom D} {calls more : StoreCalls D}

theorem LeadsTo.append (h : LeadsTo epoch doc runtime calls runtime')
    (hmore : LeadsTo epoch doc runtime' more last) :
    LeadsTo epoch doc runtime (calls ++ more) last :=
  ⟨statementsOf_append calls more ▸ h.along.append hmore.along, hmore.follows⟩

theorem LeadsTo.congr (h : LeadsTo epoch doc runtime calls runtime')
    (hpersisted : last.persisted = runtime'.persisted) (hdoc : last.doc = runtime'.doc) :
    LeadsTo epoch doc runtime calls last where
  along := by
    rw [hpersisted, hdoc]
    exact h.along
  follows := by
    rw [hpersisted, hdoc]
    exact h.follows

/-- Nothing is written, and what is stored of the room is the same. -/
theorem LeadsTo.nil (hfollows : Follows epoch doc runtime.persisted.epoch runtime.doc)
    (hpersisted : runtime'.persisted = runtime.persisted) (hdoc : runtime'.doc = runtime.doc) :
    LeadsTo epoch doc runtime [] runtime' where
  along := by
    rw [hpersisted, hdoc]
    exact .nil fun _ => endures_of_storedAs hfollows
  follows := by
    rw [hpersisted, hdoc]
    exact hfollows

/-- A call on the data store. -/
theorem LeadsTo.data {call : StoreCall D} {memory : RuntimeRoom D}
    (hcall : call.statements = [.data call])
    (hfollows : Follows epoch doc runtime.persisted.epoch runtime.doc)
    (h : LeadsTo epoch doc runtime calls runtime') :
    LeadsTo epoch doc runtime ((call, memory) :: calls) runtime' where
  along := by
    have hstatements : statementsOf ((call, memory) :: calls)
        = .data call :: statementsOf calls := by
      rw [statementsOf, List.flatMap_cons, hcall]
      rfl
    rw [hstatements]
    exact .data (collectable_storedAs _ _) (fun _ => endures_of_storedAs hfollows) h.along
  follows := h.follows

/-- The lease of the room is saved. -/
theorem leadsTo_saveRuntimeCalls (hfollows : Follows epoch doc runtime.persisted.epoch runtime.doc)
    (himage : runtime'.persisted.image runtime.doc = runtime.persisted.image runtime.doc)
    (hsound : RoomSound runtime'.persisted runtime.doc)
    (hpersisted : last.persisted = runtime'.persisted) (hdoc : last.doc = runtime.doc) :
    LeadsTo epoch doc runtime (saveRuntimeCalls runtime') last := by
  have hepoch : runtime'.persisted.epoch = runtime.persisted.epoch :=
    congrArg SnapshotLog.Image.generation himage
  constructor
  · rw [hpersisted, hdoc]
    refine along_saveRuntimeCalls (collectable_storedAs _ _)
      (fun _ => endures_of_storedAs hfollows) (fun tables h => ⟨runtime.persisted.row, ?_⟩) hsound
      (hepoch ▸ hfollows)
    rw [himage]
    exact h.shows
  · rw [hpersisted, hdoc, hepoch]
    exact hfollows

variable {cfg} {r : Room D} {tables : PgYjsTables D} {now : ℕ} {deviceId userId : String}
  {uuid : Uuid} {clientID : ℕ}

theorem leadsTo_joinCalls {file : StoredFile} {connection : ℕ}
    (h : StoredAs r.runtime.persisted r.runtime.doc tables)
    (hfollows : Follows epoch doc r.runtime.persisted.epoch r.runtime.doc) :
    LeadsTo epoch doc r.runtime (r.joinCalls cfg now deviceId)
      (r.join cfg now file deviceId userId connection).room.runtime := by
  have hpersisted : (r.join cfg now file deviceId userId connection).room.runtime.persisted
      = (r.extendLease cfg now deviceId).runtime.persisted := by
    rcases r.join_cases with ⟨e, hjoin⟩ | ⟨role, joined, rfl, hjoin⟩ <;> rw [hjoin] <;> rfl
  have hdoc : (r.join cfg now file deviceId userId connection).room.runtime.doc
      = r.runtime.doc := by
    rcases r.join_cases with ⟨e, hjoin⟩ | ⟨role, joined, rfl, hjoin⟩ <;> rw [hjoin] <;> rfl
  have hsave : LeadsTo epoch doc r.runtime
      (saveRuntimeCalls (r.extendLease cfg now deviceId).runtime)
      (r.join cfg now file deviceId userId connection).room.runtime :=
    leadsTo_saveRuntimeCalls hfollows rfl ⟨h.fresh, h.seeded, h.unseeded⟩ hpersisted hdoc
  exact hsave.append (.data rfl hsave.follows (.nil hsave.follows rfl rfl))

theorem leadsTo_activateCalls {file : StoredFile}
    (hfollows : Follows epoch doc r.runtime.persisted.epoch r.runtime.doc) :
    LeadsTo epoch doc r.runtime (r.activateCalls cfg now clientID file deviceId)
      (r.activate cfg now clientID file deviceId).runtime := by
  have hlater : r.runtime.persisted.epoch
      < (r.activate cfg now clientID file deviceId).runtime.persisted.epoch := by
    simp only [Room.activate, Room.saveRuntime]
    split <;> omega
  have hfollows' : Follows epoch doc
      (r.activate cfg now clientID file deviceId).runtime.persisted.epoch
      (r.activate cfg now clientID file deviceId).runtime.doc := by
    rcases hfollows with ⟨hsame, -⟩ | hless
    · exact Or.inr (hsame ▸ hlater)
    · exact Or.inr (hless.trans hlater)
  unfold Room.activateCalls
  dsimp only
  generalize hactivated : (r.activate cfg now clientID file deviceId).runtime = activated at *
  -- its row without a snapshot
  have hrow : Along (Endures epoch doc) (StoredAs r.runtime.persisted r.runtime.doc)
      (statementsOf (saveRuntimeCalls activated))
      (ShowsRoom activated.persisted.row ⟨activated.persisted.epoch, none, 1, ⊥⟩) := by
    refine .cons (collectable_storedAs _ _) (fun _ => endures_of_storedAs hfollows)
      (fun tables h => (h.shows.begin hlater).saveRoom ?_ (Nat.le_refl _))
      (.data (collectable_showsRoom _ _) (fun _ => endures_of_unseeded rfl ?_ rfl)
        (.nil fun _ => endures_of_unseeded rfl ?_ rfl)) <;> subst hactivated
    · exact Nat.one_pos
    · rfl
    · rfl
  have hsnapshot : Along (Endures epoch doc)
      (ShowsRoom activated.persisted.row ⟨activated.persisted.epoch, none, 1, ⊥⟩)
      (statementsOf [(snapshotCall activated now 0 .activation (some deviceId), activated)])
      (ShowsRoom activated.persisted.row
        ⟨activated.persisted.epoch, some (activated.doc, 0), 1, activated.doc⟩) := by
    refine along_snapshotCall (collectable_showsRoom _ _)
      (fun _ => endures_of_unseeded rfl ?_ rfl) (fun _ => id) rfl bot_le Nat.one_pos rfl
      (fun _ => ?_) hfollows' <;> (subst hactivated; rfl)
  have hstored : ∀ tables, ShowsRoom activated.persisted.row
      ⟨activated.persisted.epoch, some (activated.doc, 0), 1, activated.doc⟩ tables →
        StoredAs activated.persisted activated.doc tables := by
    subst hactivated
    refine fun tables h => ⟨⟨fun hnone => absurd hnone (Option.some_ne_none _), fun _ => rfl,
      fun hfalse => absurd hfalse.symm Bool.false_ne_true⟩, h, fun hroom => ?_⟩
    have hseeded := congrArg YjsRoomRow.seeded h.stored
    rw [hroom] at hseeded
    exact absurd hseeded Bool.false_ne_true
  have hread : Along (Endures epoch doc) (StoredAs r.runtime.persisted r.runtime.doc)
      (statementsOf (if (r.runtime.persisted.snapshot.isNone && truthy file.contentHash) = true then
        [(StoreCall.getContent (file.contentHash.getD ""), { r.runtime with doc := ⊥ })] else []))
      (StoredAs r.runtime.persisted r.runtime.doc) := by
    have hnil : Along (Endures epoch doc) (StoredAs r.runtime.persisted r.runtime.doc) []
        (StoredAs r.runtime.persisted r.runtime.doc) := .nil fun _ => endures_of_storedAs hfollows
    split
    · exact .data (collectable_storedAs _ _) (fun _ => endures_of_storedAs hfollows) hnil
    · exact hnil
  refine ⟨?_, hfollows'⟩
  rw [statementsOf_append, statementsOf_append]
  exact (hread.append hrow).append (hsnapshot.mono_final hstored)

theorem leadsTo_promoteCalls {connection : ℕ}
    (h : StoredAs r.runtime.persisted r.runtime.doc tables) :
    LeadsTo r.runtime.persisted.epoch r.runtime.doc r.runtime
      (r.promoteCalls cfg now clientID deviceId userId)
      (r.promote cfg now clientID deviceId userId connection).room.runtime := by
  rcases promoteCalls_cases cfg r now clientID deviceId userId connection with
    ⟨hcalls, hroom⟩ | ⟨file, ⟨-, hcalls, hroom⟩ | ⟨-, hcalls, hroom⟩⟩
  · rw [hcalls, hroom]
    exact .nil (.refl _ _) rfl rfl
  · rw [hcalls, hroom]
    exact leadsTo_joinCalls h (.refl _ _)
  · rw [hcalls, hroom]
    have hactivate : LeadsTo r.runtime.persisted.epoch r.runtime.doc r.runtime
        (r.activateCalls cfg now clientID file deviceId)
        (r.activate cfg now clientID file deviceId).runtime := leadsTo_activateCalls (.refl _ _)
    have hstored := hactivate.along.final [] tables h
    exact hactivate.append (leadsTo_joinCalls hstored hactivate.follows)

/-- An update is logged and merged, and the room is saved. -/
theorem leadsTo_merge {update : StoredYjsUpdate D} {memory captured last : RuntimeRoom D}
    (h : StoredAs r.runtime.persisted r.runtime.doc tables)
    (hepoch : update.roomEpoch = r.runtime.persisted.epoch)
    (hseq : update.seq = r.runtime.persisted.nextSeq)
    (himage : captured.persisted.image captured.doc = { r.runtime.persisted.image r.runtime.doc with
      next := r.runtime.persisted.nextSeq + 1, doc := r.runtime.doc ⊔ update.update })
    (hsound : RoomSound captured.persisted captured.doc)
    (hpersisted : last.persisted = captured.persisted) (hlast : last.doc = captured.doc) :
    LeadsTo r.runtime.persisted.epoch r.runtime.doc r.runtime
      ((.appendUpdate update, memory) :: saveRuntimeCalls captured) last := by
  have hgeneration : captured.persisted.epoch = r.runtime.persisted.epoch :=
    congrArg SnapshotLog.Image.generation himage
  have hdoc : captured.doc = r.runtime.doc ⊔ update.update :=
    congrArg SnapshotLog.Image.doc himage
  have hfollows : Follows r.runtime.persisted.epoch r.runtime.doc captured.persisted.epoch
      captured.doc := Or.inl ⟨hgeneration, hdoc ▸ le_sup_left⟩
  refine ⟨?_, hpersisted ▸ hlast ▸ hfollows⟩
  rw [statementsOf_cons, hpersisted, hlast]
  refine (along_appendUpdate (.refl _ _) hepoch hseq).append
    (along_saveRuntimeCalls (collectable_uncounted fun s hshown => ?_)
      (fun _ => endures_of_uncounted rfl) (fun tables h => ?_) hsound hfollows)
  · exact (h.shows.holds.part hshown).2
  · exact ⟨_, himage ▸ h.toShowsRoom⟩

/-- An update is logged and merged, and the room is saved with a snapshot. -/
theorem leadsTo_mergeCaptured {update : StoredYjsUpdate D} {reason : SnapshotHistoryReason}
    {author user : Option String} {memory merged captured last : RuntimeRoom D}
    (h : StoredAs r.runtime.persisted r.runtime.doc tables)
    (hepoch : update.roomEpoch = r.runtime.persisted.epoch)
    (hseq : update.seq = r.runtime.persisted.nextSeq)
    (hdoc : merged.doc = r.runtime.doc ⊔ update.update)
    (hmerged : merged.persisted.epoch = r.runtime.persisted.epoch)
    (himage : captured.persisted.image captured.doc = ⟨r.runtime.persisted.epoch,
      some (merged.doc, r.runtime.persisted.nextSeq), r.runtime.persisted.nextSeq + 1, merged.doc⟩)
    (hsound : RoomSound captured.persisted captured.doc)
    (hpersisted : last.persisted = captured.persisted) (hlast : last.doc = captured.doc) :
    LeadsTo r.runtime.persisted.epoch r.runtime.doc r.runtime
      ((.appendUpdate update, memory) ::
        (snapshotCall merged now r.runtime.persisted.nextSeq reason author user, merged) ::
        saveRuntimeCalls captured) last := by
  have hgeneration : captured.persisted.epoch = r.runtime.persisted.epoch :=
    congrArg SnapshotLog.Image.generation himage
  have hsame : captured.doc = merged.doc := congrArg SnapshotLog.Image.doc himage
  have hgrown : r.runtime.doc ≤ merged.doc := hdoc ▸ le_sup_left
  have hfollows : Follows r.runtime.persisted.epoch r.runtime.doc captured.persisted.epoch
      captured.doc := Or.inl ⟨hgeneration, hsame ▸ hgrown⟩
  refine ⟨?_, hpersisted ▸ hlast ▸ hfollows⟩
  rw [statementsOf_cons, statementsOf_cons (snapshotCall merged now _ reason author user, merged),
    hpersisted, hlast]
  have hsnapshot : Along (Endures r.runtime.persisted.epoch r.runtime.doc)
      (Uncounted r.runtime.persisted.row { r.runtime.persisted.image r.runtime.doc with
        next := r.runtime.persisted.nextSeq + 1, doc := r.runtime.doc ⊔ update.update })
      (statementsOf
        [(snapshotCall merged now r.runtime.persisted.nextSeq reason author user, merged)])
      (ShowsRoom r.runtime.persisted.row ⟨r.runtime.persisted.epoch,
        some (merged.doc, r.runtime.persisted.nextSeq), r.runtime.persisted.nextSeq + 1,
        merged.doc⟩) := by
    refine along_snapshotCall (collectable_uncounted fun s hshown => ?_)
      (fun _ => endures_of_uncounted rfl) (fun _ h => h.toShowsRoom) hmerged hdoc.ge
      (Nat.lt_succ_self _) rfl h.seeded (Or.inl ⟨rfl, hgrown⟩)
    exact (h.shows.holds.part hshown).2
  refine (along_appendUpdate (.refl _ _) hepoch hseq).append (hsnapshot.append
    (along_saveRuntimeCalls (collectable_showsRoom _ _)
      (fun _ => endures_of_showsRoom rfl h.seeded (fun _ => le_refl _) (Or.inl ⟨rfl, hgrown⟩))
      (fun tables h => ⟨_, himage ▸ h⟩) hsound hfollows))

/-- The calls of an update that is accepted. -/
theorem leadsTo_acceptUpdateCalls {participant : Participant} {updateId : ℕ} {update : D}
    (h : StoredAs r.runtime.persisted r.runtime.doc tables)
    (hactive : r.runtime.persisted.active = true) :
    LeadsTo r.runtime.persisted.epoch r.runtime.doc r.runtime
      (r.acceptUpdateCalls cfg now participant userId update)
      (r.acceptUpdate cfg ready now participant userId updateId update).room.runtime := by
  have hseeded := h.seeded hactive
  unfold Room.acceptUpdateCalls Room.acceptUpdate
  by_cases hcadence : cfg.options.snapshotEveryUpdates > 0 ∧
      r.runtime.persisted.nextSeq % cfg.options.snapshotEveryUpdates = 0
  · simp only [hcadence, and_self, decide_true, if_true]
    exact leadsTo_mergeCaptured h rfl rfl rfl rfl rfl ⟨nofun, h.seeded, fun _ => le_refl _⟩ rfl rfl
  · simp only [hcadence, decide_false, Bool.false_eq_true, if_false]
    refine leadsTo_merge h rfl rfl rfl ⟨h.fresh, h.seeded, fun hfalse => ?_⟩ rfl rfl
    exact absurd (hseeded.symm.trans hfalse) (by decide)

theorem leadsTo_handleUpdateCalls {roomEpoch updateId : ℕ} {update : D}
    (h : StoredAs r.runtime.persisted r.runtime.doc tables) :
    LeadsTo r.runtime.persisted.epoch r.runtime.doc r.runtime
      (r.handleUpdateCalls cfg now deviceId userId roomEpoch update)
      (r.handleUpdate cfg ready now deviceId userId roomEpoch updateId update).room.runtime := by
  have hnothing : ∀ {runtime' : RuntimeRoom D}, runtime'.persisted = r.runtime.persisted →
      runtime'.doc = r.runtime.doc →
        LeadsTo r.runtime.persisted.epoch r.runtime.doc r.runtime [] runtime' :=
    .nil (.refl _ _)
  unfold Room.handleUpdateCalls Room.handleUpdate
  cases requireRole cfg.vaultId deviceId userId true r.data with
  | error e => exact hnothing rfl rfl
  | ok role =>
    dsimp only
    by_cases hsize : cfg.updateBytes update > maxUpdateBytes
    · rw [if_pos hsize, if_pos hsize]
      exact hnothing rfl rfl
    rw [if_neg hsize, if_neg hsize]
    cases hstale : r.rejectIfStale roomEpoch deviceId with
    | some sent => exact hnothing rfl rfl
    | none =>
      cases r.requireParticipant deviceId with
      | error e => exact hnothing rfl rfl
      | ok participant =>
        dsimp only
        split
        · exact hnothing rfl rfl
        split
        · exact hnothing rfl rfl
        · have hactive := (Room.rejectIfStale_eq_none_iff.mp hstale).1
          generalize hcounted : r.withParticipant (Room.checkRateLimit cfg now participant).1 = t
          have hpersisted : t.runtime.persisted = r.runtime.persisted := by rw [← hcounted]; rfl
          have hdoc : t.runtime.doc = r.runtime.doc := by rw [← hcounted]; rfl
          rw [← hpersisted, ← hdoc] at h ⊢
          have haccept : LeadsTo t.runtime.persisted.epoch t.runtime.doc t.runtime
              (t.acceptUpdateCalls cfg now (Room.checkRateLimit cfg now participant).1 userId
                update)
              (t.acceptUpdate cfg ready now (Room.checkRateLimit cfg now participant).1 userId
                updateId update).room.runtime :=
            leadsTo_acceptUpdateCalls h (hpersisted ▸ hactive)
          exact ⟨hpersisted ▸ hdoc ▸ haccept.along, haccept.follows⟩

theorem leadsTo_heartbeatCalls {roomEpoch : ℕ}
    (h : StoredAs r.runtime.persisted r.runtime.doc tables) :
    LeadsTo r.runtime.persisted.epoch r.runtime.doc r.runtime
      (r.heartbeatCalls cfg now deviceId roomEpoch)
      (r.heartbeat cfg now deviceId roomEpoch).room.runtime := by
  unfold Room.heartbeatCalls Room.heartbeat
  cases r.rejectIfStale roomEpoch deviceId with
  | some sent => exact .nil (.refl _ _) rfl rfl
  | none =>
    cases r.requireParticipant deviceId with
    | error e => exact .nil (.refl _ _) rfl rfl
    | ok participant =>
      exact leadsTo_saveRuntimeCalls (.refl _ _) rfl ⟨h.fresh, h.seeded, h.unseeded⟩ rfl rfl

/-- A snapshot is taken of the room, updates that it holds may be deleted, and the room is
saved. -/
theorem leadsTo_capture {seq : ℕ} {reason : SnapshotHistoryReason} {author user : Option String}
    {captured last memory : RuntimeRoom D} {deletes : StoreCalls D}
    (h : StoredAs r.runtime.persisted r.runtime.doc tables)
    (hseq : seq < r.runtime.persisted.nextSeq)
    (hdeletes : ∀ call ∈ deletes, ∃ roomEpoch, call.1 = .deleteUpdatesThrough roomEpoch seq)
    (himage : captured.persisted.image r.runtime.doc
      = { r.runtime.persisted.image r.runtime.doc with shown := some (r.runtime.doc, seq) })
    (hsound : RoomSound captured.persisted r.runtime.doc)
    (hpersisted : last.persisted = captured.persisted) (hlast : last.doc = r.runtime.doc) :
    LeadsTo r.runtime.persisted.epoch r.runtime.doc r.runtime
      ((snapshotCall r.runtime now seq reason author user, memory) ::
        (deletes ++ saveRuntimeCalls captured)) last := by
  have hgeneration : captured.persisted.epoch = r.runtime.persisted.epoch :=
    congrArg SnapshotLog.Image.generation himage
  have hfollows : Follows r.runtime.persisted.epoch r.runtime.doc captured.persisted.epoch
      r.runtime.doc := Or.inl ⟨hgeneration, le_refl _⟩
  refine ⟨?_, hpersisted ▸ hlast ▸ hfollows⟩
  rw [statementsOf_cons, statementsOf_append, hpersisted, hlast]
  have hsnapshot : Along (Endures r.runtime.persisted.epoch r.runtime.doc)
      (StoredAs r.runtime.persisted r.runtime.doc)
      (statementsOf [(snapshotCall r.runtime now seq reason author user, memory)])
      (ShowsRoom r.runtime.persisted.row
        { r.runtime.persisted.image r.runtime.doc with shown := some (r.runtime.doc, seq) }) :=
    along_snapshotCall (collectable_storedAs _ _) (fun _ => endures_of_storedAs (.refl _ _))
      (fun _ h => h.shows) rfl (le_refl _) hseq rfl h.seeded (.refl _ _)
  have hendures : ∀ tables, ShowsRoom r.runtime.persisted.row
      { r.runtime.persisted.image r.runtime.doc with shown := some (r.runtime.doc, seq) } tables →
        Endures r.runtime.persisted.epoch r.runtime.doc tables :=
    fun _ => endures_of_showsRoom rfl h.seeded (fun _ => le_refl _) (.refl _ _)
  have hdeleted : Along (Endures r.runtime.persisted.epoch r.runtime.doc)
      (ShowsRoom r.runtime.persisted.row
        { r.runtime.persisted.image r.runtime.doc with shown := some (r.runtime.doc, seq) })
      (statementsOf deletes)
      (ShowsRoom r.runtime.persisted.row
        { r.runtime.persisted.image r.runtime.doc with shown := some (r.runtime.doc, seq) }) := by
    induction deletes with
    | nil => exact .nil hendures
    | cons call deletes ih =>
      obtain ⟨roomEpoch, hcall⟩ := hdeletes call List.mem_cons_self
      rw [statementsOf_cons]
      refine Along.append ?_ (ih fun call hmem => hdeletes call (List.mem_cons_of_mem _ hmem))
      obtain ⟨call, memory⟩ := call
      obtain rfl : call = _ := hcall
      exact .cons (collectable_showsRoom _ _) hendures
        (fun tables h => h.deleteUpdatesThrough rfl (Nat.le_refl _)) (.nil hendures)
  exact hsnapshot.append (hdeleted.append (along_saveRuntimeCalls (collectable_showsRoom _ _)
    hendures (fun tables h => ⟨_, himage ▸ h⟩) hsound hfollows))

theorem leadsTo_demoteLockedCalls {reason : RoomClosedReason}
    (h : StoredAs r.runtime.persisted r.runtime.doc tables) :
    LeadsTo r.runtime.persisted.epoch r.runtime.doc r.runtime
      (r.demoteLockedCalls cfg now uuid)
      (r.demoteLocked cfg ready now uuid reason).room.runtime := by
  unfold Room.demoteLockedCalls Room.demoteLocked
  cases hactive : r.runtime.persisted.active with
  | false => exact .nil (.refl _ _) rfl rfl
  | true =>
    simp only [Bool.not_true, Bool.false_eq_true, if_false]
    rcases process cfg.platform now uuid (r.flushOp cfg) none r.data with ⟨e | result, data⟩
    · exact .data rfl (.refl _ _) (.nil (.refl _ _) rfl rfl)
    · cases result with
      | reject answer => exact .data rfl (.refl _ _) (.nil (.refl _ _) rfl rfl)
      | ack answer =>
        refine .data rfl (.refl _ _) ?_
        have hseq : r.runtime.persisted.nextSeq - 1 < r.runtime.persisted.nextSeq :=
          Nat.sub_lt h.shows.next_pos Nat.one_pos
        let inactive : RuntimeRoom D :=
          { r.runtime with persisted := { r.runtime.persisted with
              snapshot := some r.runtime.doc, compactedThroughSeq := r.runtime.persisted.nextSeq - 1
              active := false, leaseOwner := none, leaseUntil := none } }
        have hsound : RoomSound inactive.persisted r.runtime.doc :=
          ⟨fun hnone => (Option.some_ne_none _ hnone).elim,
            fun htrue => (Bool.false_ne_true htrue).elim, fun _ => le_refl _⟩
        have hcapture : LeadsTo r.runtime.persisted.epoch r.runtime.doc r.runtime
            ((snapshotCall r.runtime now (r.runtime.persisted.nextSeq - 1) .demote
              r.runtime.persisted.leaseOwner, r.runtime) :: ([] ++ saveRuntimeCalls inactive))
            inactive :=
          leadsTo_capture h hseq (fun _ hmem => absurd hmem List.not_mem_nil) rfl hsound rfl rfl
        exact hcapture.append (.data rfl hcapture.follows (.nil hcapture.follows rfl rfl))

theorem leadsTo_compactCalls {throughSeq : Option ℕ}
    (h : StoredAs r.runtime.persisted r.runtime.doc tables)
    (hseq : ∀ seq ∈ throughSeq, seq < r.runtime.persisted.nextSeq) :
    LeadsTo r.runtime.persisted.epoch r.runtime.doc r.runtime (r.compactCalls now throughSeq)
      (r.compact cfg now throughSeq).room.runtime := by
  have hseq' : throughSeq.getD (r.runtime.persisted.nextSeq - 1) < r.runtime.persisted.nextSeq := by
    cases throughSeq with
    | none => exact Nat.sub_lt h.shows.next_pos Nat.one_pos
    | some seq => exact hseq seq rfl
  have hsound : RoomSound { r.runtime.persisted with
      snapshot := some r.runtime.doc
      compactedThroughSeq := throughSeq.getD (r.runtime.persisted.nextSeq - 1) } r.runtime.doc :=
    ⟨fun hnone => (Option.some_ne_none _ hnone).elim, h.seeded, fun _ => le_refl _⟩
  have hdeletes {epoch seq : ℕ} {memory : RuntimeRoom D} :
      ∀ call ∈ ([(.deleteUpdatesThrough epoch seq, memory)] : StoreCalls D),
        ∃ epoch, call.1 = .deleteUpdatesThrough epoch seq :=
    fun call hmem => ⟨epoch, congrArg Prod.fst (List.mem_singleton.mp hmem)⟩
  exact leadsTo_capture h hseq' hdeletes rfl hsound rfl rfl

theorem leadsTo_closeDeletedCalls (h : StoredAs r.runtime.persisted r.runtime.doc tables) :
    LeadsTo r.runtime.persisted.epoch r.runtime.doc r.runtime (r.closeDeletedCalls)
      (r.closeDeleted cfg ready).room.runtime := by
  unfold Room.closeDeletedCalls Room.closeDeleted
  split
  · let inactive : RuntimeRoom D :=
      { r.runtime with persisted := { r.runtime.persisted with
          active := false, leaseOwner := none, leaseUntil := none } }
    have hsave : LeadsTo r.runtime.persisted.epoch r.runtime.doc r.runtime
        (saveRuntimeCalls inactive) inactive :=
      leadsTo_saveRuntimeCalls (.refl _ _) rfl ⟨h.fresh, nofun, h.unseeded⟩ rfl rfl
    exact hsave.append (.data rfl hsave.follows (.nil hsave.follows rfl rfl))
  · exact .nil (.refl _ _) rfl rfl

theorem leadsTo_restoreHistoryVersionCalls {versionId : ℕ} {requestId : String}
    (h : StoredAs r.runtime.persisted r.runtime.doc tables) :
    LeadsTo r.runtime.persisted.epoch r.runtime.doc r.runtime
      (r.restoreHistoryVersionCalls cfg now uuid clientID deviceId userId versionId requestId)
      (r.restoreHistoryVersion cfg ready now uuid clientID deviceId userId versionId
        requestId).room.runtime := by
  unfold Room.restoreHistoryVersionCalls Room.restoreHistoryVersion
  cases requireRole cfg.vaultId deviceId userId true r.data with
  | error e => exact .nil (.refl _ _) rfl rfl
  | ok role =>
    cases requiredLiveFile cfg.vaultId cfg.fileId r.data with
    | error e => exact .nil (.refl _ _) rfl rfl
    | ok file =>
      cases r.roomStore.getSnapshotVersion versionId with
      | none => exact .nil (.refl _ _) rfl rfl
      | some version =>
        dsimp only
        refine .data rfl (.refl _ _) ?_
        rcases process cfg.platform now uuid (Room.restoreOp cfg file
          (textFromSnapshot cfg version.snapshot) requestId) none r.data with ⟨e | result, data⟩
        · exact .nil (.refl _ _) rfl rfl
        · cases result with
          | reject answer => exact .nil (.refl _ _) rfl rfl
          | ack answer =>
            exact leadsTo_mergeCaptured h rfl rfl rfl rfl rfl ⟨nofun, h.seeded, fun _ => le_refl _⟩
              rfl rfl

theorem leadsTo_demoteCaught {reason : RoomClosedReason} {failed : Room D → Room D}
    (h : StoredAs r.runtime.persisted r.runtime.doc tables)
    (hpersisted : ∀ r, (failed r).runtime.persisted = r.runtime.persisted)
    (hdoc : ∀ r, (failed r).runtime.doc = r.runtime.doc) :
    LeadsTo r.runtime.persisted.epoch r.runtime.doc r.runtime
      (r.demoteLockedCalls cfg now uuid)
      (r.demoteCaught cfg ready now uuid reason failed).room.runtime := by
  have hdemote : LeadsTo r.runtime.persisted.epoch r.runtime.doc r.runtime
      (r.demoteLockedCalls cfg now uuid)
      (r.demoteLocked cfg ready now uuid reason).room.runtime := leadsTo_demoteLockedCalls h
  unfold Room.demoteCaught
  dsimp only
  split
  · exact hdemote
  · exact hdemote.congr (hpersisted _) (hdoc _)

/-- A participant is only in memory. -/
theorem leadsTo_removeParticipant (participant : Participant) :
    LeadsTo r.runtime.persisted.epoch r.runtime.doc r.runtime []
      (r.removeParticipant participant).runtime := by
  unfold Room.removeParticipant Room.scheduleClosingIfEmpty
  split <;> exact .nil (.refl _ _) rfl rfl

/-- **After each statement of a call the tables hold the room**, unless they are half written, and
after the last one they hold what the call leaves. -/
theorem leadsTo_storeCalls (e : RoomEvent D)
    (h : StoredAs r.runtime.persisted r.runtime.doc tables)
    (hcompact : ∀ {now throughSeq}, e = .compact now throughSeq →
      ∀ seq ∈ throughSeq, seq < r.runtime.persisted.nextSeq) :
    LeadsTo r.runtime.persisted.epoch r.runtime.doc r.runtime (storeCalls cfg r e)
      (e.room cfg r).runtime := by
  have hnil : LeadsTo r.runtime.persisted.epoch r.runtime.doc r.runtime [] r.runtime :=
    .nil (.refl _ _) rfl rfl
  -- one case for each call; those that store nothing leave the tables as they are
  cases e with
  | layer1 | restart => exact hnil
  | promote => exact leadsTo_promoteCalls h
  | handleUpdate => exact leadsTo_handleUpdateCalls h
  | handleSync deviceId roomEpoch stateVector =>
    have hroom := r.handleSync_room cfg deviceId roomEpoch stateVector
    exact hnil.congr (congrArg (·.runtime.persisted) hroom) (congrArg (·.runtime.doc) hroom)
  | heartbeat => exact leadsTo_heartbeatCalls h
  | leave deviceId roomEpoch =>
    show LeadsTo r.runtime.persisted.epoch r.runtime.doc r.runtime []
      (r.leave deviceId roomEpoch).room.runtime
    rcases r.leave_cases with hroom | ⟨participant, -, hroom⟩ <;> rw [hroom]
    · exact hnil
    · exact leadsTo_removeParticipant participant
  | disconnect deviceId =>
    show LeadsTo r.runtime.persisted.epoch r.runtime.doc r.runtime []
      (r.disconnect deviceId).runtime
    rcases r.disconnect_cases with ⟨-, hroom⟩ | ⟨participant, -, hroom⟩ <;> rw [hroom]
    · exact hnil
    · exact leadsTo_removeParticipant participant
  | demote now uuid deviceId roomEpoch reason =>
    have hdemote : LeadsTo r.runtime.persisted.epoch r.runtime.doc r.runtime
        (r.demoteLockedCalls cfg now uuid)
        (r.demoteLocked cfg ready now uuid reason).room.runtime := leadsTo_demoteLockedCalls h
    cases roomEpoch with
    | none => exact hdemote
    | some epoch =>
      show LeadsTo r.runtime.persisted.epoch r.runtime.doc r.runtime
        (if r.demotes (some epoch) then r.demoteLockedCalls cfg now uuid else [])
        (r.demote cfg ready now uuid deviceId (some epoch) reason).room.runtime
      unfold Room.demote Room.demotes
      by_cases hepoch : r.runtime.persisted.epoch = epoch
      · simp only [Option.all_some, hepoch, decide_true, if_true, ne_eq, not_true, if_false]
        exact hepoch ▸ hdemote
      · simp only [Option.all_some, hepoch, decide_false, Bool.false_eq_true, if_false, ne_eq,
          not_false_eq_true, if_true]
        exact hnil
  | closeDeleted => exact leadsTo_closeDeletedCalls h
  | closingTimer now uuid =>
    show LeadsTo r.runtime.persisted.epoch r.runtime.doc r.runtime
      (if r.timerDemotes then r.demoteLockedCalls cfg now uuid else [])
      (r.closingTimer cfg ready now uuid).room.runtime
    unfold Room.closingTimer Room.timerDemotes
    split
    · exact leadsTo_demoteCaught h (fun _ => rfl) (fun _ => rfl)
    · exact hnil
  | sweepExpired now uuid =>
    show LeadsTo r.runtime.persisted.epoch r.runtime.doc r.runtime
      (if r.expired now then r.demoteLockedCalls cfg now uuid else [])
      (r.sweepExpired cfg ready now uuid).room.runtime
    unfold Room.sweepExpired Room.expired
    split
    · exact leadsTo_demoteLockedCalls h
    · exact hnil
  | closeAll now uuid reason =>
    show LeadsTo r.runtime.persisted.epoch r.runtime.doc r.runtime
      (r.demoteLockedCalls cfg now uuid) (r.closeAll cfg ready now uuid reason).room.runtime
    unfold Room.closeAll
    split
    · next hdormant =>
      simp only [Room.demoteLockedCalls, hdormant, if_true]
      exact hnil
    · exact leadsTo_demoteCaught h (fun _ => rfl) (fun _ => rfl)
  | compact => exact leadsTo_compactCalls h (hcompact rfl)
  | restoreHistoryVersion => exact leadsTo_restoreHistoryVersionCalls h

end

/-! ### What clients were shown -/

/-- The update, or the document, is in that of the room. -/
def Shown (r : Room D) (m : ℕ × D) : Prop :=
  m.1 = r.runtime.persisted.epoch ∧ m.2 ≤ r.runtime.doc

/-- What a message shows is in the document of the room. -/
def MessageShown (r : Room D) (acknowledged : Option D) : RoomMessage D → Prop
  | .roomState roomEpoch document => Shown r (roomEpoch, document)
  | .yjsUpdate roomEpoch _ update _ => Shown r (roomEpoch, update)
  | .yjsAck roomEpoch _ _ => ∀ update ∈ acknowledged, Shown r (roomEpoch, update)
  | _ => True

section

variable {cfg} {r t : Room D} {acknowledged : Option D} {now : ℕ} {deviceId userId : String}
  {uuid : Uuid} {clientID roomEpoch : ℕ}

omit [OrderBot D] in
theorem shown_toldBy {sent : List (RoomSink × RoomMessage D)}
    (h : ∀ message ∈ sent, MessageShown r acknowledged message.2) :
    ∀ m ∈ toldBy acknowledged sent, Shown r m := by
  intro m hm
  obtain ⟨⟨sink, message⟩, hsent, hm⟩ := List.mem_flatMap.mp hm
  have hshown := h _ hsent
  cases message with
  | roomState | yjsUpdate =>
    rw [List.mem_singleton.mp hm]
    exact hshown
  | yjsAck =>
    obtain ⟨update, hupdate, rfl⟩ := Option.map_eq_some_iff.mp (Option.mem_toList.mp hm)
    exact hshown update hupdate
  | roomClosed | historyRestored | error => exact absurd hm List.not_mem_nil

omit [OrderBot D] in
/-- Who sends of another incarnation is shown the room. -/
theorem messageShown_rejectIfStale {sent : List (RoomSink × RoomMessage D)}
    (h : r.rejectIfStale roomEpoch deviceId = some sent) :
    ∀ message ∈ sent, MessageShown r acknowledged message.2 := by
  intro message hmem
  unfold Room.rejectIfStale at h
  dsimp only at h
  split at h
  · obtain rfl := Option.some.inj h
    split at hmem
    · exact absurd hmem List.not_mem_nil
    · rw [List.mem_singleton.mp hmem]
      exact ⟨rfl, le_refl _⟩
  split at h
  · obtain rfl := Option.some.inj h
    split at hmem
    · exact absurd hmem List.not_mem_nil
    · rw [List.mem_singleton.mp hmem]
      trivial
  · cases h

omit [SemilatticeSup D] [OrderBot D] in
theorem mem_broadcastRoom {busy : RoomSink → Bool} {message : RoomMessage D} {all : Bool}
    {sent : RoomSink × RoomMessage D} (h : sent ∈ r.broadcastRoom busy message all) :
    sent.2 = message := by
  obtain ⟨sink, -, rfl⟩ := List.mem_map.mp h
  rfl

/-- A close tells that the room is closed. -/
theorem messageShown_demoteLocked {reason : RoomClosedReason} :
    ∀ message ∈ (r.demoteLocked cfg ready now uuid reason).sent,
      MessageShown t acknowledged message.2 := by
  intro message hmem
  unfold Room.demoteLocked at hmem
  split at hmem
  · exact absurd hmem List.not_mem_nil
  dsimp only at hmem
  split at hmem
  · exact absurd hmem List.not_mem_nil
  · exact absurd hmem List.not_mem_nil
  · rw [mem_broadcastRoom hmem]
    trivial

theorem messageShown_demoteCaught {reason : RoomClosedReason} {failed : Room D → Room D} :
    ∀ message ∈ (r.demoteCaught cfg ready now uuid reason failed).sent,
      MessageShown t acknowledged message.2 := by
  intro message hmem
  unfold Room.demoteCaught at hmem
  dsimp only at hmem
  split at hmem
  · exact messageShown_demoteLocked message hmem
  · rw [mem_broadcastRoom hmem]
    trivial

theorem shown_told_promote {connection : ℕ} :
    ∀ m ∈ (RoomEvent.promote now clientID deviceId userId connection).told cfg r,
      Shown (r.promote cfg now clientID deviceId userId connection).room m := by
  have hjoin : ∀ (t : Room D) (file : StoredFile) (message : RoomMessage D),
      (t.join cfg now file deviceId userId connection).result = .ok message →
        ∀ m ∈ message.told, Shown (t.join cfg now file deviceId userId connection).room m := by
    intro t file message hok m hm
    rcases t.join_cases with ⟨e, hjoin⟩ | ⟨role, joined, -, hjoin⟩ <;> rw [hjoin] at hok ⊢
    · cases hok
    · obtain rfl := Except.ok.inj hok
      rw [List.mem_singleton.mp hm]
      exact ⟨rfl, le_refl _⟩
  intro m hm
  simp only [RoomEvent.told] at hm
  split at hm
  · next message hok =>
    rcases r.promote_cases with ⟨-, -, e, herror⟩ | ⟨file, -, -, hpromote⟩
    · rw [herror] at hok
      cases hok
    · rw [hpromote] at hok ⊢
      exact hjoin _ file message hok m hm
  · exact absurd hm List.not_mem_nil

/-- What the messages of a call show is in the room that it leaves. -/
def OutcomeShown {α : Type} (acknowledged : Option D) (outcome : Outcome D α) : Prop :=
  ∀ message ∈ outcome.sent, MessageShown outcome.room acknowledged message.2

omit [OrderBot D] in
theorem outcomeShown_of_silent {α : Type} {outcome : Outcome D α} (h : outcome.sent = []) :
    OutcomeShown acknowledged outcome := by
  intro message hmem
  rw [h] at hmem
  exact absurd hmem List.not_mem_nil

theorem outcomeShown_acceptUpdate {participant : Participant} {updateId : ℕ} {update : D} :
    OutcomeShown (some update)
      (r.acceptUpdate cfg ready now participant userId updateId update) := by
  have hroom : (r.acceptUpdate cfg ready now participant userId updateId
        update).room.runtime.persisted.epoch = r.runtime.persisted.epoch ∧
      (r.acceptUpdate cfg ready now participant userId updateId update).room.runtime.doc
        = r.runtime.doc ⊔ update := by
    unfold Room.acceptUpdate
    dsimp only
    split <;> exact ⟨rfl, rfl⟩
  have hupdate : Shown (r.acceptUpdate cfg ready now participant userId updateId update).room
      (r.runtime.persisted.epoch, update) := ⟨hroom.1.symm, hroom.2 ▸ le_sup_right⟩
  intro message hmem
  rcases List.mem_cons.mp hmem with rfl | hmem
  · rintro update' ⟨⟩
    exact hupdate
  · obtain ⟨other, -, rfl⟩ := List.mem_map.mp hmem
    exact hupdate

theorem outcomeShown_handleUpdate {updateId : ℕ} {update : D} :
    OutcomeShown (some update)
      (r.handleUpdate cfg ready now deviceId userId roomEpoch updateId update) := by
  unfold Room.handleUpdate
  cases requireRole cfg.vaultId deviceId userId true r.data with
  | error e => exact outcomeShown_of_silent rfl
  | ok role =>
    dsimp only
    split
    · exact outcomeShown_of_silent rfl
    cases hstale : r.rejectIfStale roomEpoch deviceId with
    | some sent => exact messageShown_rejectIfStale hstale
    | none =>
      cases r.requireParticipant deviceId with
      | error e => exact outcomeShown_of_silent rfl
      | ok participant =>
        dsimp only
        split
        · exact outcomeShown_of_silent rfl
        split
        · exact outcomeShown_of_silent rfl
        · exact outcomeShown_acceptUpdate

theorem outcomeShown_handleSync {stateVector : D} :
    OutcomeShown acknowledged (r.handleSync cfg deviceId roomEpoch stateVector) := by
  unfold Room.handleSync
  split
  · exact outcomeShown_of_silent rfl
  cases hstale : r.rejectIfStale roomEpoch deviceId with
  | some sent => exact messageShown_rejectIfStale hstale
  | none =>
    cases r.requireParticipant deviceId with
    | error e => exact outcomeShown_of_silent rfl
    | ok participant =>
      intro message hmem
      rw [List.mem_singleton.mp hmem]
      exact ⟨rfl, cfg.crdt.diff_le _ _⟩

theorem outcomeShown_restoreHistoryVersion {versionId : ℕ} {requestId : String} :
    OutcomeShown acknowledged (r.restoreHistoryVersion cfg ready now uuid clientID deviceId userId
      versionId requestId) := by
  unfold Room.restoreHistoryVersion
  cases requireRole cfg.vaultId deviceId userId true r.data with
  | error e => exact outcomeShown_of_silent rfl
  | ok role =>
    cases requiredLiveFile cfg.vaultId cfg.fileId r.data with
    | error e => exact outcomeShown_of_silent rfl
    | ok file =>
      cases r.roomStore.getSnapshotVersion versionId with
      | none => exact outcomeShown_of_silent rfl
      | some version =>
        dsimp only
        rcases process cfg.platform now uuid (Room.restoreOp cfg file
          (textFromSnapshot cfg version.snapshot) requestId) none r.data with ⟨e | result, data⟩
        · exact outcomeShown_of_silent rfl
        · cases result with
          | reject answer => exact outcomeShown_of_silent rfl
          | ack answer =>
            intro message hmem
            rw [mem_broadcastRoom hmem]
            exact ⟨rfl, le_sup_right⟩

theorem outcomeShown_heartbeat :
    OutcomeShown acknowledged (r.heartbeat cfg now deviceId roomEpoch) := by
  unfold Room.heartbeat
  cases hstale : r.rejectIfStale roomEpoch deviceId with
  | some sent => exact messageShown_rejectIfStale hstale
  | none =>
    cases r.requireParticipant deviceId with
    | error e => exact outcomeShown_of_silent rfl
    | ok participant => exact outcomeShown_of_silent rfl

omit [OrderBot D] in
theorem outcomeShown_leave : OutcomeShown acknowledged (r.leave deviceId roomEpoch) := by
  unfold Room.leave
  cases hstale : r.rejectIfStale roomEpoch deviceId with
  | some sent => exact messageShown_rejectIfStale hstale
  | none =>
    cases r.requireParticipant deviceId with
    | error e => exact outcomeShown_of_silent rfl
    | ok participant => exact outcomeShown_of_silent rfl

theorem outcomeShown_demote {reason : RoomClosedReason} {epoch : Option ℕ} :
    OutcomeShown acknowledged (r.demote cfg ready now uuid deviceId epoch reason) := by
  have hdemote : ∀ message ∈ (r.demoteLocked cfg ready now uuid reason).sent,
      MessageShown (r.demoteLocked cfg ready now uuid reason).room acknowledged message.2 :=
    messageShown_demoteLocked
  unfold Room.demote
  cases epoch with
  | none => exact hdemote
  | some epoch =>
    dsimp only
    split
    · cases hstale : r.rejectIfStale epoch deviceId with
      | some sent => exact messageShown_rejectIfStale hstale
      | none => exact outcomeShown_of_silent rfl
    · exact hdemote

theorem outcomeShown_closeDeleted : OutcomeShown acknowledged (r.closeDeleted cfg ready) := by
  unfold Room.closeDeleted
  split
  · intro message hmem
    rw [mem_broadcastRoom hmem]
    trivial
  · exact outcomeShown_of_silent rfl

/-- The timers and the shutdown tell that the room is closed, or of an error. -/
theorem outcomeShown_closingTimer :
    OutcomeShown acknowledged (r.closingTimer cfg ready now uuid) := by
  unfold Room.closingTimer
  split
  · exact messageShown_demoteCaught
  · exact outcomeShown_of_silent rfl

theorem outcomeShown_sweepExpired :
    OutcomeShown acknowledged (r.sweepExpired cfg ready now uuid) := by
  unfold Room.sweepExpired
  split
  · exact messageShown_demoteLocked
  · exact outcomeShown_of_silent rfl

theorem outcomeShown_closeAll {reason : RoomClosedReason} :
    OutcomeShown acknowledged (r.closeAll cfg ready now uuid reason) := by
  unfold Room.closeAll
  split
  · exact outcomeShown_of_silent rfl
  · exact messageShown_demoteCaught

/-- **What a call shows of the document is in the document that it leaves.** -/
theorem shown_told (e : RoomEvent D) : ∀ m ∈ e.told cfg r, Shown (e.room cfg r) m := by
  cases e with
  | layer1 | disconnect | compact | restart => exact fun m hm => absurd hm List.not_mem_nil
  | promote => exact shown_told_promote
  | handleUpdate => exact shown_toldBy outcomeShown_handleUpdate
  | handleSync => exact shown_toldBy outcomeShown_handleSync
  | heartbeat => exact shown_toldBy outcomeShown_heartbeat
  | leave => exact shown_toldBy outcomeShown_leave
  | demote => exact shown_toldBy outcomeShown_demote
  | closeDeleted => exact shown_toldBy outcomeShown_closeDeleted
  | closingTimer => exact shown_toldBy outcomeShown_closingTimer
  | sweepExpired => exact shown_toldBy outcomeShown_sweepExpired
  | closeAll => exact shown_toldBy outcomeShown_closeAll
  | restoreHistoryVersion => exact shown_toldBy outcomeShown_restoreHistoryVersion

end

/-! ### Runs -/

/-- The room in memory, or as it would be loaded. -/
def PgRoomServer.room (s : PgRoomServer D) : RuntimeRoom D :=
  s.runtime.getD (s.tables.loadRuntime [] [])

/-- A crash leaves the tables whole, and a compaction stays within the updates that were merged. -/
def Harmless (s : PgRoomServer D) : PgRoomEvent D → Prop
  | .call (.compact _ throughSeq) _ => ∀ seq ∈ throughSeq, seq < s.room.persisted.nextSeq
  | .crash (.compact now throughSeq) between statements =>
    (∀ seq ∈ throughSeq, seq < s.room.persisted.nextSeq) ∧
      Whole (pgRoomStep cfg s (.crash (.compact now throughSeq) between statements)).tables
  | .crash e between statements => Whole (pgRoomStep cfg s (.crash e between statements)).tables
  | _ => True

/-- What a restart gives back, whatever the collector does while the room is loaded: the room in
memory, and all that a client was shown of the incarnation. -/
structure Recovers (s : PgRoomServer D) : Prop where
  runtime : ∀ between later, ∀ runtime ∈ s.runtime,
    (s.tables.loadRuntime between later).persisted = runtime.persisted ∧
      (s.tables.loadRuntime between later).doc = runtime.doc
  told : ∀ between later, ∀ m ∈ s.told,
    m.1 = (s.tables.loadRuntime between later).persisted.epoch →
      m.2 ≤ (s.tables.loadRuntime between later).doc

/-- The tables are those of the room, in memory or not, which has all that was shown of it. -/
structure KeepsRoom (s : PgRoomServer D) (persisted : PersistedYjsRoom D) (doc : D) : Prop where
  stored : StoredAs persisted doc s.tables
  runtime : ∀ runtime ∈ s.runtime, runtime.persisted = persisted ∧ runtime.doc = doc
  told : ∀ m ∈ s.told, m.1 ≤ persisted.epoch ∧ (m.1 = persisted.epoch → m.2 ≤ doc)

section

variable {cfg} {s : PgRoomServer D} {persisted : PersistedYjsRoom D} {doc : D}
  {tables : PgYjsTables D} {r : Room D} {e : RoomEvent D} {between : List (List CollectorStatement)}

theorem KeepsRoom.recovers (h : KeepsRoom s persisted doc) : Recovers s where
  runtime between later runtime hruntime := by
    rw [h.stored.loadRuntime between later]
    obtain ⟨hpersisted, hdoc⟩ := h.runtime runtime hruntime
    exact ⟨hpersisted.symm, hdoc.symm⟩
  told between later m hm hepoch := by
    rw [h.stored.loadRuntime between later] at hepoch ⊢
    exact (h.told m hm).2 hepoch

theorem KeepsRoom.room (h : KeepsRoom s persisted doc) : s.room.persisted = persisted := by
  unfold PgRoomServer.room
  cases hruntime : s.runtime with
  | none => rw [Option.getD_none, h.stored.loadRuntime [] []]
  | some runtime => exact (h.runtime runtime hruntime).1

/-- The room that a call finds is the one that is kept. -/
theorem KeepsRoom.finds (h : KeepsRoom s persisted doc)
    (hfinds : s.finds e between = some (tables, r)) :
    StoredAs persisted doc tables ∧ r.runtime.persisted = persisted ∧ r.runtime.doc = doc := by
  unfold PgRoomServer.finds at hfinds
  dsimp only at hfinds
  cases hruntime : s.runtime with
  | none =>
    rw [hruntime] at hfinds
    obtain ⟨t, -, hsame⟩ := Option.map_eq_some_iff.mp hfinds
    obtain ⟨rfl, rfl⟩ := Prod.mk.inj hsame
    refine ⟨(h.stored.collected _).collected _, ?_⟩
    rw [h.stored.loadRuntime]
    exact ⟨rfl, rfl⟩
  | some runtime =>
    rw [hruntime] at hfinds
    obtain ⟨t, hfound, hsame⟩ := Option.map_eq_some_iff.mp hfinds
    obtain ⟨rfl, rfl⟩ := Prod.mk.inj hsame
    rw [← materialize_of_finds hfound]
    exact ⟨h.stored, h.runtime runtime hruntime⟩

omit [OrderBot D] in
/-- What was shown is still there in a room that follows. -/
theorem told_of_follows {told : List (ℕ × D)} {persisted' : PersistedYjsRoom D} {doc' : D}
    (h : ∀ m ∈ told, m.1 ≤ persisted.epoch ∧ (m.1 = persisted.epoch → m.2 ≤ doc))
    (hfollows : Follows persisted.epoch doc persisted'.epoch doc') :
    ∀ m ∈ told, m.1 ≤ persisted'.epoch ∧ (m.1 = persisted'.epoch → m.2 ≤ doc') := by
  intro m hm
  obtain ⟨hle, hshown⟩ := h m hm
  rcases hfollows with ⟨hsame, hgrown⟩ | hlater
  · rw [hsame]
    exact ⟨hle, fun hepoch => (hshown hepoch).trans hgrown⟩
  · exact ⟨hle.trans hlater.le, fun hepoch => absurd hlater (Nat.not_lt.mpr (hepoch ▸ hle))⟩

theorem KeepsRoom.call (h : KeepsRoom s persisted doc)
    (hfinds : s.finds e between = some (tables, r))
    (hcompact : ∀ {now throughSeq}, e = .compact now throughSeq →
      ∀ seq ∈ throughSeq, seq < s.room.persisted.nextSeq) :
    ∃ persisted' doc', KeepsRoom
      { data := (e.room cfg r).data
        tables := runAll (between.drop 2) (statementsOf (storeCalls cfg r e)) tables
        runtime := some (e.room cfg r).runtime
        told := s.told ++ e.told cfg r } persisted' doc' := by
  obtain ⟨hstored, rfl, rfl⟩ := h.finds hfinds
  have hleads : LeadsTo r.runtime.persisted.epoch r.runtime.doc r.runtime (storeCalls cfg r e)
      (e.room cfg r).runtime :=
    leadsTo_storeCalls e hstored fun hsame => h.room ▸ hcompact hsame
  refine ⟨(e.room cfg r).runtime.persisted, (e.room cfg r).runtime.doc,
    hleads.along.final _ _ hstored, ?_, fun m hm => ?_⟩
  · rintro runtime ⟨⟩
    exact ⟨rfl, rfl⟩
  · rcases List.mem_append.mp hm with hold | hnew
    · exact told_of_follows h.told hleads.follows m hold
    · obtain ⟨hepoch, hle⟩ := shown_told e m hnew
      exact ⟨hepoch.le, fun _ => hle⟩

/-- A crash that leaves the tables whole leaves the room, or a later one. -/
theorem KeepsRoom.crash (h : KeepsRoom s persisted doc)
    (hfinds : s.finds e between = some (tables, r)) {statements : ℕ} {data : Store}
    (hcompact : ∀ {now throughSeq}, e = .compact now throughSeq →
      ∀ seq ∈ throughSeq, seq < s.room.persisted.nextSeq)
    (hwhole : Whole (runAll (between.drop 2) ((statementsOf (storeCalls cfg r e)).take statements)
      tables)) :
    ∃ persisted' doc', KeepsRoom
      { data
        tables := runAll (between.drop 2)
          ((statementsOf (storeCalls cfg r e)).take statements) tables
        runtime := none
        told := s.told } persisted' doc' := by
  obtain ⟨hstored, rfl, rfl⟩ := h.finds hfinds
  have hleads : LeadsTo r.runtime.persisted.epoch r.runtime.doc r.runtime (storeCalls cfg r e)
      (e.room cfg r).runtime :=
    leadsTo_storeCalls e hstored fun hsame => h.room ▸ hcompact hsame
  obtain ⟨persisted', doc', hstored', hfollows⟩ :=
    hleads.along.every (between.drop 2) tables statements hstored hwhole
  exact ⟨persisted', doc', hstored', nofun, told_of_follows h.told hfollows⟩

/-- A call that finds no room changes the data store, or the process is restarted, or it does
nothing. -/
theorem pgRoomStep_of_finds_none (hfinds : s.finds e between = none) :
    (pgRoomStep cfg s (.call e between)).tables = s.tables ∧
      (pgRoomStep cfg s (.call e between)).told = s.told ∧
      ((pgRoomStep cfg s (.call e between)).runtime = s.runtime ∨
        (pgRoomStep cfg s (.call e between)).runtime = none) := by
  cases e with
  | layer1 => exact ⟨rfl, rfl, Or.inl rfl⟩
  | restart => exact ⟨rfl, rfl, Or.inr rfl⟩
  | _ => simp only [pgRoomStep, hfinds, true_or, and_self]

/-- A call on the room it finds. -/
theorem pgRoomStep_of_finds (hfinds : s.finds e between = some (tables, r)) :
    pgRoomStep cfg s (.call e between)
      = { data := (e.room cfg r).data
          tables := runAll (between.drop 2) (statementsOf (storeCalls cfg r e)) tables
          runtime := some (e.room cfg r).runtime
          told := s.told ++ e.told cfg r } := by
  cases e with
  | layer1 | restart =>
    unfold PgRoomServer.finds at hfinds
    dsimp only at hfinds
    split at hfinds <;> cases hfinds
  | _ => simp only [pgRoomStep, hfinds]

/-- What a harmless step keeps. -/
theorem KeepsRoom.step (h : KeepsRoom s persisted doc) (event : PgRoomEvent D)
    (hharmless : Harmless cfg s event) :
    ∃ persisted' doc', KeepsRoom (pgRoomStep cfg s event) persisted' doc' := by
  cases event with
  | collect statement =>
    exact ⟨persisted, doc, h.stored.collect statement, h.runtime, h.told⟩
  | call e between =>
    cases hfinds : s.finds e between with
    | none =>
      obtain ⟨htables, htold, hruntime⟩ := @pgRoomStep_of_finds_none _ _ _ cfg _ _ _ hfinds
      refine ⟨persisted, doc, htables ▸ h.stored, fun runtime hmem => ?_, htold ▸ h.told⟩
      rcases hruntime with hsame | hnone
      · exact h.runtime runtime (hsame ▸ hmem)
      · rw [hnone] at hmem
        cases hmem
    | some found =>
      rw [pgRoomStep_of_finds hfinds]
      refine h.call hfinds fun {now throughSeq} hsame => ?_
      subst hsame
      exact hharmless
  | crash e between statements =>
    cases hfinds : s.finds e between with
    | none =>
      simp only [pgRoomStep, hfinds]
      exact ⟨persisted, doc, h.stored, nofun, h.told⟩
    | some found =>
      have hstep : (pgRoomStep cfg s (.crash e between statements)).tables
          = runAll (between.drop 2) ((statementsOf (storeCalls cfg found.2 e)).take statements)
              found.1 := by
        simp only [pgRoomStep, hfinds]
      have hcompact : ∀ {now throughSeq}, e = .compact now throughSeq →
          ∀ seq ∈ throughSeq, seq < s.room.persisted.nextSeq := by
        rintro now throughSeq rfl
        exact hharmless.1
      have hwhole : Whole (pgRoomStep cfg s (.crash e between statements)).tables := by
        cases e with
        | compact => exact hharmless.2
        | _ => exact hharmless
      rw [hstep] at hwhole
      simp only [pgRoomStep, hfinds]
      exact h.crash hfinds hcompact hwhole

theorem keepsRoom_initial (data : Store) :
    KeepsRoom ({ data } : PgRoomServer D) emptyRoom ⊥ where
  stored :=
    ⟨⟨fun _ => rfl, fun hactive => absurd hactive Bool.false_ne_true, fun _ => le_refl _⟩,
      ⟨rfl, Nat.one_pos, Nat.le_refl _, SnapshotLog.holds_empty Nat.one_pos⟩, fun _ => rfl⟩
  runtime := nofun
  told := nofun

end

end

/-- A participant writes, the collector comes, the process dies while the room closes, and the note
is opened again. -/
def sampleCrash : List (PgRoomEvent (Finset Write)) :=
  [.call sampleCreate [], .call (.promote 2 7 "d2" "u" 0) [],
    .call (.handleUpdate 3 "d2" "u" 1 1 (writes.change 9 textName "two"
      (writes.change 7 textName "one" ⊥))) [[], [.compactedUpdates]],
    .collect .compactedUpdates,
    .crash (.demote 4 sampleUuid "d2" none .demoted) [[], [], [.supersededSnapshots]] 1,
    .call (.promote 5 8 "d1" "u" 0) [[.compactedUpdates], [.compactedUpdates]]]

end ObsidianSync
