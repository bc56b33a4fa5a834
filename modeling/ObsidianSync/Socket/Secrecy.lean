import ObsidianSync.Socket.Hashes

/-!
# Content stays inside its vault

What a vault is answered under a hash it has supplied itself: as the text of an op or a
resolution, or by announcing the upload before the blob was verified.  The server keeps
content by hash for all vaults, so this rests on the hashes an op puts into the rows, the
conflicts and the log of its vault.  The guard of the socket looks at one of them at most:
at none if the op carries a text or no hash, and at the blob alone if it names both.

## Main definitions

* `Supplies` — a message supplies bytes for a vault under a hash.
* `AnswersOwn` — what is read for a vault the vault has supplied before.
* `NamesAvailable` — an op that goes through names only hashes that are the vault's.
* `StaysInside` — ops do so, and no create takes the file id of another vault.

## Main results

* `secret_socketStep` — the invariant of a step.
* `answersOwn_of_namesAvailable` — **in every run in which the ops that go through name
  only hashes of their vault, content stays inside its vault.**
* `not_answersOwn_blobRef` — an op with a blob and no hash lets its vault read another's.
-/

namespace ObsidianSync

section

variable {D : Type} [SemilatticeSup D] [OrderBot D]

/-! ### What messages supply -/

/-- The texts the room of a note writes in an event, each in an op of its vault. -/
def roomTexts (cfg : RoomConfig D) (s : SocketServer D) (vaultId fileId : String)
    (event : RoomEvent D) : List String :=
  match event.finds (s.sync.room vaultId fileId) with
  | none => []
  | some r => callTexts (storeCalls (cfg.ofNote vaultId fileId) r event)

/-- The byte strings that come in with an event. -/
def SocketEvent.bytes (cfg : RoomConfig D) (s : SocketServer D) : SocketEvent D → List Bytes
  | .fileOp _ _ _ op => op.inlineText.toList.map encodeText
  | .resolveConflict _ _ _ _ inlineText _ => inlineText.toList.map encodeText
  | .putObject _ bytes => [bytes]
  | .room vaultId fileId event => (roomTexts cfg s vaultId fileId event).map encodeText
  | _ => []

/-- A message, sent in `s`, supplies the bytes for the vault under the hash: as the text of
an op or a resolution in the vault, or by announcing an upload under the hash before it was
verified.  The text of a room is that of the op by which the room writes it. -/
def Supplies (cfg : RoomConfig D) (vaultId hash : String) (bytes : Bytes)
    (s : SocketServer D) (e : SocketEvent D) : Prop :=
  match e with
  | .fileOp connection _ _ op =>
    connection.vaultId = vaultId ∧ op.vaultId = vaultId ∧ bytes ∈ e.bytes cfg s
  | .resolveConflict connection .. => connection.vaultId = vaultId ∧ bytes ∈ e.bytes cfg s
  | .room roomVault _ _ => roomVault = vaultId ∧ bytes ∈ e.bytes cfg s
  | .blobUploadInit connection announced _ =>
    connection.vaultId = vaultId ∧ announced = hash ∧ s.sync.data.blobVerified hash = false
  | _ => False

instance (cfg : RoomConfig D) (vaultId hash : String) (bytes : Bytes) (s : SocketServer D)
    (e : SocketEvent D) : Decidable (Supplies cfg vaultId hash bytes s e) :=
  match e with
  | .fileOp .. | .blobUploadInit .. => inferInstanceAs (Decidable (_ ∧ _ ∧ _))
  | .resolveConflict .. | .room .. => inferInstanceAs (Decidable (_ ∧ _))
  | .putObject .. | .blobUploadComplete .. | .claimConflict .. | .releaseConflict ..
  | .getContent .. | .saveDevice _ | .setRole .. | .restart => inferInstanceAs (Decidable False)

/-- A server with the messages it has handled before. -/
abbrev SocketPast (D : Type) := Run.Recorded (SocketServer D) (SocketEvent D)

/-- The vault has supplied the bytes of the hash before. -/
def Supplied (cfg : RoomConfig D) (r : SocketPast D) (vaultId hash : String) (bytes : Bytes) :
    Prop :=
  ∃ m ∈ r.past, Supplies cfg vaultId hash bytes m.1 m.2

/-- **Content stays inside its vault**: what a `get_content` is answered with, the vault of
its connection has supplied before, and so with the text from which a room is seeded. -/
def AnswersOwn (cfg : RoomConfig D) (r : SocketPast D) : SocketEvent D → Prop
  | .getContent connection hash =>
    ∀ bytes, r.state.readContent cfg.platform connection hash = .ok (some bytes) →
      Supplied cfg r connection.vaultId hash bytes
  | .room vaultId fileId event =>
    ∀ room ∈ event.finds (r.state.sync.room vaultId fileId),
      ∀ call ∈ storeCalls (cfg.ofNote vaultId fileId) room event, ∀ hash,
        call.1 = .getContent hash → ∀ bytes ∈ r.state.sync.data.getContent hash,
          Supplied cfg r vaultId hash bytes
  | _ => True

/-! ### The condition -/

/-- Every hash the op names is one its vault holds or has announced, or that of its text. -/
def NamesAvailable (P : Platform) (s : SocketServer D) (op : FileOp) : Prop :=
  ∀ hash, isValidContentHash hash = true → op.Names hash →
    s.available op.vaultId hash = true ∨ ∃ text ∈ op.inlineText, hash = contentHashText P text

omit [SemilatticeSup D] [OrderBot D] in
/-- Only the hash and the blob of the op matter. -/
theorem namesAvailable_iff {P : Platform} {s : SocketServer D} {op : FileOp} :
    NamesAvailable P s op ↔ ∀ hash ∈ op.contentHash.toList ++ op.blobRef.toList,
      isValidContentHash hash = true → s.available op.vaultId hash = true ∨
        ∃ text ∈ op.inlineText, hash = contentHashText P text := by
  simp only [NamesAvailable, FileOp.Names, List.mem_append, Option.mem_toList, Option.mem_def]
  exact ⟨fun h hash hnames hvalid => h hash hvalid hnames,
    fun h hash hvalid hnames => h hash hnames hvalid⟩

instance (P : Platform) (s : SocketServer D) (op : FileOp) : Decidable (NamesAvailable P s op) :=
  decidable_of_iff' _ namesAvailable_iff

/-- The byte strings that have come in before. -/
def brought (cfg : RoomConfig D) (r : SocketPast D) : List Bytes :=
  r.past.flatMap fun m => m.2.bytes cfg m.1

/-- No two different byte strings have come in with one hash. -/
def HashesApart (P : Platform) (known : List Bytes) : Prop :=
  ∀ bytes ∈ known, ∀ other ∈ known, contentHash P bytes = contentHash P other → bytes = other

instance (P : Platform) (known : List Bytes) : Decidable (HashesApart P known) :=
  inferInstanceAs (Decidable (∀ bytes ∈ known, ∀ other ∈ known, _))

/-- An op passes the guards of the socket and the checks of the processor. -/
structure GoesThrough (P : Platform) (s : SocketServer D) (connection : Connection) (now : Time)
    (uuid : Uuid) (op : FileOp) : Prop where
  device : op.deviceId = connection.deviceId
  vault : op.vaultId = connection.vaultId
  access : assertOpContentAccess s connection op = .ok ()
  accepted : (accepted P now uuid op (some connection.userId) s.sync.data).isSome = true

omit [SemilatticeSup D] [OrderBot D] in
theorem goesThrough_iff {P : Platform} {s : SocketServer D} {connection : Connection} {now : Time}
    {uuid : Uuid} {op : FileOp} :
    GoesThrough P s connection now uuid op ↔
      op.deviceId = connection.deviceId ∧ op.vaultId = connection.vaultId ∧
        assertOpContentAccess s connection op = .ok () ∧
        (accepted P now uuid op (some connection.userId) s.sync.data).isSome = true :=
  ⟨fun h => ⟨h.device, h.vault, h.access, h.accepted⟩, fun h => ⟨h.1, h.2.1, h.2.2.1, h.2.2.2⟩⟩

instance (P : Platform) (s : SocketServer D) (connection : Connection) (now : Time) (uuid : Uuid)
    (op : FileOp) : Decidable (GoesThrough P s connection now uuid op) :=
  decidable_of_iff' _ goesThrough_iff

/-- The event leaves the hashes inside their vaults: an op that goes through names only
hashes of its vault, and no file id of another one, whose row the tables would give the hash;
and SHA-256 tells what comes in from everything before. -/
def StaysInside (cfg : RoomConfig D) (r : SocketPast D) (e : SocketEvent D) : Prop :=
  HashesApart cfg.platform (brought cfg r ++ e.bytes cfg r.state) ∧
    match e with
    | .fileOp connection now uuid op =>
      GoesThrough cfg.platform r.state connection now uuid op →
        NamesAvailable cfg.platform r.state op ∧ NamesOwnFile r.state.sync.data op
    | _ => True

instance (cfg : RoomConfig D) (r : SocketPast D) (e : SocketEvent D) :
    Decidable (StaysInside cfg r e) :=
  match e with
  | .fileOp .. => inferInstanceAs (Decidable (_ ∧ (_ → _)))
  | .blobUploadInit .. | .putObject .. | .blobUploadComplete .. | .claimConflict ..
  | .releaseConflict .. | .resolveConflict .. | .getContent .. | .room .. | .saveDevice _
  | .setRole .. | .restart => inferInstanceAs (Decidable (_ ∧ True))

/-- A server with nothing in it yet but devices and roles. -/
structure NewSockets (s : SocketServer D) : Prop where
  files : s.sync.data.files.rows = []
  conflicts : s.sync.data.conflicts.rows = []
  ops : s.sync.data.ops = []
  content : s.sync.data.content.rows = []
  objects : s.objects.rows = []
  pending : s.pendingBlobOwners = []

/-! ### The invariant -/

/-- The vault has a claim to the hash: it has supplied bytes with the hash, or announced
their upload. -/
def Entitled (cfg : RoomConfig D) (r : SocketPast D) (vaultId hash : String) : Prop :=
  ∃ m ∈ r.past,
    (∃ bytes ∈ m.2.bytes cfg m.1, contentHash cfg.platform bytes = hash ∧
      Supplies cfg vaultId hash bytes m.1 m.2) ∨
    ∀ bytes, Supplies cfg vaultId hash bytes m.1 m.2

/-- What holds between messages: vaults name only hashes they are entitled to, and what is
kept has come in, under its own hash. -/
structure Secret (cfg : RoomConfig D) (r : SocketPast D) : Prop where
  held : ∀ vaultId hash, isValidContentHash hash = true →
    r.state.sync.data.holdsContent vaultId hash = true → Entitled cfg r vaultId hash
  pending : ∀ owner ∈ r.state.pendingBlobOwners, Entitled cfg r owner.1 owner.2
  kept : ∀ entry ∈ r.state.sync.data.content.rows,
    contentHash cfg.platform entry.2 = entry.1 ∧ entry.2 ∈ brought cfg r
  stored : ∀ object ∈ r.state.objects.rows, object.2 ∈ brought cfg r
  apart : HashesApart cfg.platform (brought cfg r)

variable {cfg : RoomConfig D} {r : SocketPast D}

theorem mem_brought {bytes : Bytes} {m : SocketServer D × SocketEvent D} (hm : m ∈ r.past)
    (h : bytes ∈ m.2.bytes cfg m.1) : bytes ∈ brought cfg r :=
  List.mem_flatMap.mpr ⟨m, hm, h⟩

theorem brought_recorded (e : SocketEvent D) :
    brought cfg (Run.recorded (socketStep cfg) r e) = brought cfg r ++ e.bytes cfg r.state := by
  simp [brought, Run.recorded]

theorem Entitled.recorded {vaultId hash : String} (h : Entitled cfg r vaultId hash)
    (e : SocketEvent D) : Entitled cfg (Run.recorded (socketStep cfg) r e) vaultId hash := by
  obtain ⟨m, hm, hsupplies⟩ := h
  exact ⟨m, Run.past_subset_recorded _ r e hm, hsupplies⟩

/-- An entitled vault has supplied what has come in under the hash. -/
theorem Entitled.supplied {vaultId hash : String} {bytes : Bytes} (h : Entitled cfg r vaultId hash)
    (hapart : HashesApart cfg.platform (brought cfg r)) (hmem : bytes ∈ brought cfg r)
    (hhash : contentHash cfg.platform bytes = hash) : Supplied cfg r vaultId hash bytes := by
  obtain ⟨m, hm, ⟨own, hown, hownHash, hsupplies⟩ | hinit⟩ := h
  · have hsame : own = bytes :=
      hapart own (mem_brought hm hown) bytes hmem (hownHash.trans hhash.symm)
    exact ⟨m, hm, hsame ▸ hsupplies⟩
  · exact ⟨m, hm, hinit bytes⟩

/-- **Who is answered is entitled**: the bytes of a read have come in before, under a hash
the vault may name. -/
theorem Secret.supplied (h : Secret cfg r) {vaultId hash : String} {bytes : Bytes}
    (hheld : r.state.sync.data.holdsContent vaultId hash = true)
    (hmem : bytes ∈ brought cfg r) (hhash : contentHash cfg.platform bytes = hash) :
    Supplied cfg r vaultId hash bytes := by
  have hvalid : isValidContentHash hash = true := by
    rw [← hhash]
    exact isValidContentHash_contentHash cfg.platform bytes
  exact (h.held vaultId hash hvalid hheld).supplied h.apart hmem hhash

theorem Secret.getContent (h : Secret cfg r) {hash : String} {bytes : Bytes}
    (hbytes : r.state.sync.data.getContent hash = some bytes) :
    contentHash cfg.platform bytes = hash ∧ bytes ∈ brought cfg r := by
  obtain ⟨entry, hget, rfl⟩ := Option.map_eq_some_iff.mp hbytes
  obtain ⟨hhash, hmem⟩ := h.kept entry (Table.mem_of_get? hget)
  exact ⟨hhash.trans (Table.key_of_get? hget), hmem⟩

theorem of_getBytes {P : Platform} {hash : String} {objects : Bucket} {s : Store} {bytes : Bytes}
    (h : getBytes P hash objects s = .ok (some bytes)) :
    contentHash P bytes = hash ∧ ∃ object ∈ objects.rows, object.2 = bytes := by
  unfold getBytes at h
  split at h
  · simp [deny] at h
  split at h
  · simp at h
  split at h
  · simp at h
  next object hget =>
  split at h
  · simp [deny] at h
  next hhash =>
  obtain rfl : object.2 = bytes := by simpa using h
  exact ⟨not_not.mp hhash, object, Table.mem_of_get? hget, rfl⟩

/-- **A state with the invariant answers what its vaults have supplied.** -/
theorem answersOwn_of_secret (h : Secret cfg r) (e : SocketEvent D) : AnswersOwn cfg r e := by
  cases e with
  | getContent connection hash =>
    intro bytes hread
    unfold SocketServer.readContent at hread
    split at hread
    · simp [deny] at hread
    next hheld =>
    rw [Bool.not_eq_true', Bool.not_eq_false] at hheld
    split at hread
    · simp [deny] at hread
    split at hread
    · next kept hkept =>
      obtain rfl : kept = bytes := by simpa using hread
      obtain ⟨hhash, hmem⟩ := h.getContent hkept
      exact h.supplied hheld hmem hhash
    · obtain ⟨hhash, object, hmem, rfl⟩ := of_getBytes hread
      exact h.supplied hheld (h.stored object hmem) hhash
  | room vaultId fileId event =>
    intro room hroom call hcall hash hget bytes hbytes
    have hown := ownCall_storeCalls _ _ event call hcall
    rw [hget, ← materialize_of_finds hroom] at hown
    have hheld : r.state.sync.data.holdsContent vaultId hash = true := hown
    obtain ⟨hhash, hmem⟩ := h.getContent hbytes
    exact h.supplied hheld hmem hhash
  | fileOp | blobUploadInit | putObject | blobUploadComplete | claimConflict | releaseConflict
  | resolveConflict | saveDevice | setRole | restart => trivial

/-! ### Steps -/

/-- The data store of the server after an event, with its effects on uploads and bucket
apart. -/
theorem Secret.of_step (h : Secret cfg r) {e : SocketEvent D}
    (hapart : HashesApart cfg.platform (brought cfg r ++ e.bytes cfg r.state))
    (hheld : ∀ vaultId hash, isValidContentHash hash = true →
      (socketStep cfg r.state e).sync.data.holdsContent vaultId hash = true →
      r.state.sync.data.holdsContent vaultId hash = true ∨
        Entitled cfg (Run.recorded (socketStep cfg) r e) vaultId hash)
    (hpending : ∀ owner ∈ (socketStep cfg r.state e).pendingBlobOwners,
      owner ∈ r.state.pendingBlobOwners ∨
        Entitled cfg (Run.recorded (socketStep cfg) r e) owner.1 owner.2)
    (hkept : ∀ entry ∈ (socketStep cfg r.state e).sync.data.content.rows,
      entry ∈ r.state.sync.data.content.rows ∨
        contentHash cfg.platform entry.2 = entry.1 ∧ entry.2 ∈ e.bytes cfg r.state)
    (hstored : ∀ object ∈ (socketStep cfg r.state e).objects.rows,
      object ∈ r.state.objects.rows ∨ object.2 ∈ e.bytes cfg r.state) :
    Secret cfg (Run.recorded (socketStep cfg) r e) where
  held vaultId hash hvalid hholds :=
    (hheld vaultId hash hvalid hholds).elim
      (fun hold => (h.held vaultId hash hvalid hold).recorded e) id
  pending owner howner :=
    (hpending owner howner).elim (fun hold => (h.pending owner hold).recorded e) id
  kept entry hentry := by
    rw [brought_recorded, List.mem_append]
    rcases hkept entry hentry with hold | ⟨hhash, hmem⟩
    · exact (h.kept entry hold).imp_right Or.inl
    · exact ⟨hhash, Or.inr hmem⟩
  stored object hobject := by
    rw [brought_recorded, List.mem_append]
    exact (hstored object hobject).imp_left (h.stored object)
  apart := by
    rw [brought_recorded]
    exact hapart

/-- The vault whose message brings in bytes under their hash is entitled to it. -/
theorem entitled_of_supplies {e : SocketEvent D} {vaultId : String} {bytes : Bytes}
    (hmem : bytes ∈ e.bytes cfg r.state)
    (hsupplies : ∀ hash, Supplies cfg vaultId hash bytes r.state e) :
    Entitled cfg (Run.recorded (socketStep cfg) r e) vaultId (contentHash cfg.platform bytes) :=
  ⟨(r.state, e), Run.mem_past_recorded.mpr (Or.inr rfl),
    Or.inl ⟨bytes, hmem, rfl, hsupplies _⟩⟩

/-- What a vault may name it is entitled to. -/
theorem Secret.entitled_of_available (h : Secret cfg r) {vaultId hash : String}
    (hvalid : isValidContentHash hash = true) (havailable : r.state.available vaultId hash = true) :
    Entitled cfg r vaultId hash := by
  rw [SocketServer.available, Bool.or_eq_true, decide_eq_true_eq] at havailable
  rcases havailable with hheld | hpending
  · exact h.held vaultId hash hvalid hheld
  · exact h.pending (vaultId, hash) hpending

theorem secret_fileOp (h : Secret cfg r) {connection : Connection} {now : Time} {uuid : Uuid}
    {op : FileOp} (he : StaysInside cfg r (.fileOp connection now uuid op)) :
    Secret cfg (Run.recorded (socketStep cfg) r (.fileOp connection now uuid op)) := by
  obtain ⟨hapart, hnames⟩ := he
  have hbytes : ∀ text ∈ op.inlineText,
      encodeText text ∈ (SocketEvent.fileOp connection now uuid op).bytes cfg r.state := by
    intro text htext
    exact List.mem_map_of_mem (Option.mem_toList.mpr htext)
  rcases fileOp_cases cfg.platform r.state connection now uuid op with
    hsame | ⟨hdevice, hvault, haccess, hdata, hobjects, hpending⟩
  · refine h.of_step hapart ?_ ?_ ?_ ?_ <;> simp only [socketStep, hsame]
    · exact fun _ _ _ hheld => Or.inl hheld
    · exact fun _ howner => Or.inl howner
    · exact fun _ hentry => Or.inl hentry
    · exact fun _ hobject => Or.inl hobject
  refine h.of_step hapart ?_ (fun owner howner => Or.inl (hpending howner)) ?_
    (fun object hobject => Or.inl (hobjects ▸ hobject))
  · intro vaultId hash hvalid hheld
    simp only [socketStep, hdata] at hheld
    rcases holdsContent_process hheld with hold | ⟨rfl, haccepted, hnamed⟩
    · exact Or.inl hold
    refine Or.inr ?_
    -- a new hash is the vault's already, or that of the text
    rcases (hnames ⟨hdevice, hvault, haccess, haccepted⟩).1 hash hvalid hnamed with
      havailable | ⟨text, htext, rfl⟩
    · exact (h.entitled_of_available hvalid havailable).recorded _
    · exact entitled_of_supplies (hbytes text htext) fun _ =>
        ⟨hvault.symm, rfl, hbytes text htext⟩
  · intro entry hentry
    simp only [socketStep, hdata] at hentry
    rcases content_process hentry with hold | ⟨text, htext, rfl⟩
    · exact Or.inl hold
    · exact Or.inr ⟨rfl, hbytes text htext⟩

theorem secret_resolveConflict (h : Secret cfg r) {connection : Connection} {now : Time}
    {conflictId : String} {resolvedHash inlineText : Option String} {resolvedVV : VersionVector}
    (he : StaysInside cfg r
      (.resolveConflict connection now conflictId resolvedHash inlineText resolvedVV)) :
    Secret cfg (Run.recorded (socketStep cfg) r
      (.resolveConflict connection now conflictId resolvedHash inlineText resolvedVV)) := by
  have hbytes : ∀ text ∈ inlineText, encodeText text ∈ (SocketEvent.resolveConflict connection now
      conflictId resolvedHash inlineText resolvedVV).bytes cfg r.state := by
    intro text htext
    exact List.mem_map_of_mem (Option.mem_toList.mpr htext)
  refine h.of_step he.1 ?_ (fun _ howner => Or.inl howner) ?_ (fun _ hobject => Or.inl hobject)
  · intro vaultId hash hvalid hheld
    rcases holdsContent_resolve hheld with hold | ⟨rfl, ⟨text, htext, rfl⟩ | ⟨hresolved, hallowed⟩⟩
    · exact Or.inl hold
    · exact Or.inr (entitled_of_supplies (hbytes text htext) fun _ => ⟨rfl, hbytes text htext⟩)
    · refine Or.inr (Entitled.recorded (h.entitled_of_available hvalid ?_) _)
      have hresolved : resolvedHash = some hash := hresolved
      simpa [hresolved] using hallowed
  · intro entry hentry
    rcases content_resolve hentry with hold | ⟨text, htext, rfl⟩
    · exact Or.inl hold
    · exact Or.inr ⟨rfl, hbytes text htext⟩

/-- Where blobs, devices or roles change, or nothing does, the hashes stay. -/
theorem Secret.of_same (h : Secret cfg r) {e : SocketEvent D} (he : StaysInside cfg r e)
    (hheld : ∀ vaultId hash, (socketStep cfg r.state e).sync.data.holdsContent vaultId hash = true →
      r.state.sync.data.holdsContent vaultId hash = true)
    (hpending : ∀ owner ∈ (socketStep cfg r.state e).pendingBlobOwners,
      owner ∈ r.state.pendingBlobOwners ∨
        Entitled cfg (Run.recorded (socketStep cfg) r e) owner.1 owner.2)
    (hkept : (socketStep cfg r.state e).sync.data.content = r.state.sync.data.content)
    (hstored : ∀ object ∈ (socketStep cfg r.state e).objects.rows,
      object ∈ r.state.objects.rows ∨ object.2 ∈ e.bytes cfg r.state) :
    Secret cfg (Run.recorded (socketStep cfg) r e) :=
  h.of_step he.1 (fun vaultId hash _ hholds => Or.inl (hheld vaultId hash hholds)) hpending
    (fun _ hentry => Or.inl (hkept ▸ hentry)) hstored

theorem secret_blobUploadInit (h : Secret cfg r) {connection : Connection} {hash : String}
    {size : ℕ} (he : StaysInside cfg r (.blobUploadInit connection hash size)) :
    Secret cfg (Run.recorded (socketStep cfg) r (.blobUploadInit connection hash size)) := by
  obtain ⟨hdata, hverified⟩ := initUpload_cases hash size r.state.sync.data
  have hstep : (r.state.blobUploadInit connection hash size).2.sync.data
      = (initUpload hash size r.state.sync.data).2 := by
    unfold SocketServer.blobUploadInit
    split <;> simp_all [SocketServer.withData]
  refine h.of_same he ?_ ?_ ?_ ?_
  · intro vaultId held hheld
    simp only [socketStep, hstep] at hheld
    rcases hdata with hs | ⟨blob, hs⟩ <;> rwa [hs] at hheld
  · intro owner howner
    simp only [socketStep, SocketServer.blobUploadInit] at howner
    split at howner
    · exact Or.inl howner
    · exact Or.inl howner
    next hinit =>
    rcases List.mem_cons.mp howner with rfl | howner
    · -- the announcement counts from now on
      have hfresh := hverified (by rw [hinit])
      exact Or.inr ⟨(r.state, _), Run.mem_past_recorded.mpr (Or.inr rfl),
        Or.inr fun _ => ⟨rfl, rfl, hfresh⟩⟩
    · exact Or.inl howner
  · simp only [socketStep, hstep]
    rcases hdata with hs | ⟨blob, hs⟩
    · rw [hs]
    · rw [hs]
      rfl
  · intro object hobject
    refine Or.inl ?_
    simp only [socketStep, SocketServer.blobUploadInit] at hobject
    split at hobject <;> exact hobject

theorem secret_room (h : Secret cfg r) {vaultId fileId : String} {event : RoomEvent D}
    (he : StaysInside cfg r (.room vaultId fileId event)) :
    Secret cfg (Run.recorded (socketStep cfg) r (.room vaultId fileId event)) := by
  obtain ⟨hdata, hobjects, hpending⟩ := socketStep_room cfg r.state vaultId fileId event
  have htexts : ∀ text ∈ roomTexts cfg r.state vaultId fileId event,
      encodeText text ∈ (SocketEvent.room vaultId fileId event).bytes cfg r.state :=
    fun text htext => List.mem_map_of_mem htext
  cases hfinds : event.finds (r.state.sync.room vaultId fileId) with
  | none =>
    simp only [hfinds] at hdata
    exact h.of_same he (fun _ _ hheld => hdata ▸ hheld) (fun _ howner => Or.inl (hpending ▸ howner))
      (by rw [hdata]) (fun _ hobject => Or.inl (hobjects ▸ hobject))
  | some room =>
    rw [hfinds] at hdata
    have hroomTexts : roomTexts cfg r.state vaultId fileId event
        = callTexts (storeCalls (cfg.ofNote vaultId fileId) room event) := by
      rw [roomTexts, hfinds]
    rw [hroomTexts] at htexts
    refine h.of_step he.1 ?_ (fun _ howner => Or.inl (hpending ▸ howner)) ?_
      (fun _ hobject => Or.inl (hobjects ▸ hobject))
    · intro heldVault hash hvalid hheld
      rw [hdata] at hheld
      have hown := fun call hcall =>
        (ownCall_storeCalls (cfg.ofNote vaultId fileId) room event call hcall).writesOwn
      rcases holdsContent_calls hown hheld with hold | ⟨rfl, text, htext, rfl⟩
      · exact Or.inl hold
      · exact Or.inr (entitled_of_supplies (htexts text htext) fun _ => ⟨rfl, htexts text htext⟩)
    · intro entry hentry
      rw [hdata] at hentry
      rcases content_calls hentry with hold | ⟨text, htext, rfl⟩
      · exact Or.inl hold
      · exact Or.inr ⟨rfl, htexts text htext⟩

/-- **A message keeps the invariant.** -/
theorem secret_socketStep (h : Secret cfg r) {e : SocketEvent D} (he : StaysInside cfg r e) :
    Secret cfg (Run.recorded (socketStep cfg) r e) := by
  cases e with
  | fileOp => exact secret_fileOp h he
  | blobUploadInit => exact secret_blobUploadInit h he
  | resolveConflict => exact secret_resolveConflict h he
  | room => exact secret_room h he
  | putObject hash bytes =>
    refine h.of_same he (fun _ _ hheld => hheld) (fun _ howner => Or.inl howner) rfl ?_
    intro object hobject
    rcases Table.mem_set_iff.mp hobject with rfl | ⟨hobject, -⟩
    · exact Or.inr List.mem_cons_self
    · exact Or.inl hobject
  | blobUploadComplete connection hash =>
    have hdata := completeUpload_cases cfg.platform hash r.state.objects r.state.sync.data
    refine h.of_same he ?_ (fun _ howner => Or.inl howner) ?_ (fun _ hobject => Or.inl hobject)
    · intro vaultId held hheld
      simp only [socketStep, SocketServer.withData] at hheld
      rcases hdata with hs | ⟨blob, hs⟩ <;> rwa [hs] at hheld
    · simp only [socketStep, SocketServer.withData]
      rcases hdata with hs | ⟨blob, hs⟩
      · rw [hs]
      · rw [hs]
        rfl
  | claimConflict connection conflictId =>
    refine h.of_same he (fun _ _ hheld => holdsContent_claim hheld)
      (fun _ howner => Or.inl howner) ?_ (fun _ hobject => Or.inl hobject)
    simp only [socketStep, SocketServer.withData]
    rcases claim_cases connection.vaultId connection.userId connection.deviceId conflictId
      r.state.sync.data with hs | ⟨_, _, -, -, -, hs⟩ <;> rw [hs]
  | releaseConflict connection conflictId =>
    refine h.of_same he (fun _ _ hheld => holdsContent_release hheld)
      (fun _ howner => Or.inl howner) ?_ (fun _ hobject => Or.inl hobject)
    simp only [socketStep, SocketServer.withData]
    rcases release_cases connection.vaultId connection.userId connection.deviceId conflictId
      r.state.sync.data with hs | ⟨_, _, -, -, -, hs⟩ <;> rw [hs]
  | getContent | saveDevice | setRole =>
    exact h.of_same he (fun _ _ hheld => hheld) (fun _ howner => Or.inl howner) rfl
      (fun _ hobject => Or.inl hobject)
  | restart =>
    exact h.of_same he (fun _ _ hheld => hheld)
      (fun _ howner => absurd howner (by simp [socketStep])) rfl (fun _ hobject => Or.inl hobject)

/-! ### Runs -/

theorem NewSockets.secret {s : SocketServer D} (h : NewSockets s) :
    Secret cfg ({ state := s } : SocketPast D) where
  held vaultId hash _ hheld := by
    simp [holdsContent_iff, h.files, h.conflicts, h.ops] at hheld
  pending owner howner := by simp [h.pending] at howner
  kept entry hentry := by simp [h.content] at hentry
  stored object hobject := by simp [h.objects] at hobject
  apart := by simp [HashesApart, brought]

/-- **Content stays inside its vault** in every run in which the ops that go through name
only hashes that are their vault's own. -/
theorem answersOwn_of_namesAvailable (cfg : RoomConfig D) {s : SocketServer D}
    (hs : NewSockets s) {es : List (SocketEvent D)}
    (hes : Run.EachStep (Run.recorded (socketStep cfg)) (StaysInside cfg) { state := s } es) :
    Run.EachStep (Run.recorded (socketStep cfg)) (AnswersOwn cfg) { state := s } es :=
  Run.eachStep_of_invariant (fun _ _ h he => secret_socketStep h he)
    (fun _ e h _ => answersOwn_of_secret h e) hs.secret hes

end

/-! ### Two vaults -/

/-- Two vaults with a device each, and nothing else. -/
def sampleVaults : Store :=
  [{ deviceId := "d1", userId := "u", vaultId := "v", lastDeviceSeq := 0, lastSeq := 0,
     revoked := false },
   { deviceId := "d3", userId := "x", vaultId := "w", lastDeviceSeq := 0, lastSeq := 0,
     revoked := false }].foldl Store.saveDevice
    { roles := (Table.empty.set (("v", "u"), .owner)).set (("w", "x"), .owner) }

/-- A server with two vaults. -/
def sampleSockets : SocketServer (Finset Write) := { sync := { data := sampleVaults } }

/-- A device of the first vault. -/
def sampleReader : Connection := { vaultId := "v", deviceId := "d1", userId := "u" }

/-- A device of the second vault. -/
def sampleUploader : Connection := { vaultId := "w", deviceId := "d3", userId := "x" }

/-- The hash of the text the other vault uploads. -/
def sampleHash : String := contentHashText samplePlatform "one"

/-- One vault uploads a blob; the other sends an op under its own text, and asks for what
it may and for what it may not read. -/
def sampleOwnReads : List (SocketEvent (Finset Write)) :=
  [.blobUploadInit sampleUploader sampleHash 3,
   .putObject sampleHash (encodeText "one"),
   .blobUploadComplete sampleUploader sampleHash,
   .fileOp sampleReader 0 sampleUuid
     (sampleContentOp .create "o1" "d1" "f1" 1 (some "a.md") (sampleVV "d1" 1) "two"),
   .getContent sampleReader (contentHashText samplePlatform "two"),
   .getContent sampleReader sampleHash]

theorem newSockets_sampleSockets : NewSockets sampleSockets :=
  ⟨rfl, rfl, rfl, rfl, rfl, rfl⟩

/-- The theorem on a run with an upload, an op and two reads. -/
theorem answersOwn_sampleOwnReads :
    Run.EachStep (Run.recorded (socketStep sampleRoom)) (AnswersOwn sampleRoom)
      { state := sampleSockets } sampleOwnReads :=
  answersOwn_of_namesAvailable sampleRoom newSockets_sampleSockets (by decide +kernel)

/-- The op that reads another vault's blob: it names the blob and no hash. -/
def sampleBlobCreate : FileOp :=
  { opId := "o1", deviceId := "d1", deviceSeq := 1, fileId := "f1", vaultId := "v",
    kind := .create, type := .attachment, newContentVV := some (sampleVV "d1" 1),
    size := some 3, blobRef := some sampleHash, newPath := some "a.bin" }

/-- The second vault uploads a blob, and the first one creates a file from its hash alone. -/
def sampleBlobTheft : List (SocketEvent (Finset Write)) :=
  [.blobUploadInit sampleUploader sampleHash 3,
   .putObject sampleHash (encodeText "one"),
   .blobUploadComplete sampleUploader sampleHash,
   .fileOp sampleReader 0 sampleUuid sampleBlobCreate,
   .getContent sampleReader sampleHash]

/-- **A blob without a hash passes the guard**: the row takes the blob's hash, and its vault
is answered with bytes that only the other vault has supplied. -/
theorem not_answersOwn_blobRef :
    ¬ ∀ (s : SocketServer (Finset Write)) (es : List (SocketEvent (Finset Write))), NewSockets s →
      Run.EachStep (Run.recorded (socketStep sampleRoom)) (AnswersOwn sampleRoom)
        { state := s } es := by
  intro h
  have hrun := h sampleSockets sampleBlobTheft newSockets_sampleSockets
  have hread : AnswersOwn sampleRoom
      (Run.final (Run.recorded (socketStep sampleRoom)) { state := sampleSockets }
        (sampleBlobTheft.take 4)) (.getContent sampleReader sampleHash) := hrun.2.2.2.2.1
  have hsupplied := hread (encodeText "one") (by decide +kernel)
  revert hsupplied
  unfold Supplied
  decide +kernel

end ObsidianSync
