import ObsidianSync.Lib.Run
import ObsidianSync.Server.OpProcessor

/-!
# The rotation of refresh tokens

A refresh token is used once.  `rotateRefresh` reads its row, checks the device
and the membership, and then replaces the row in one serializable transaction:
an `UPDATE` revokes it and has `replaced_by` name its successor, an `INSERT`
writes the successor.  The column refers to the table itself, by a foreign key
that PostgreSQL checks at the end of each statement.  Any number of calls may
run at the same time; a row that one of them has updated makes the others wait.

## Main definitions

* `AuthTables`, `TokensSchema` — the tables behind a refresh, and the
  constraints of `tokens`.
* `RefreshPhase` — how far a call has come, one phase per statement.
* `refreshStep` — the next statement of one of the calls.
* `RotatedOnce` — one call has committed and put one successor in the place of
  the token, all others have failed.

## Main results

* `tablesKept_refreshStep`, `tablesKept_final` — no statement order lets a call
  commit, and the table stays as it was.
* `not_rotatedOnce` — so no token is ever rotated.
-/

namespace ObsidianSync

/-! ### The tables -/

/-- A row of `tokens`. -/
structure RefreshTokenRecord where
  tokenId : String
  userId : String
  deviceId : String
  refreshHash : String
  expiresAt : Time
  revoked : Bool
  replacedBy : Option String := none
  deriving DecidableEq, Repr

/-- The tables behind a refresh; of `users` the ids. -/
structure AuthTables where
  users : List String
  devices : Table StoredDevice.deviceId
  roles : Table (Prod.fst : (String × String) × Role → String × String)
  tokens : List RefreshTokenRecord

/-- The constraints on the rows of `tokens`: the primary key, the unique hash and the foreign
keys, the last of them into the table itself. -/
structure TokensSchema (tables : AuthTables) (tokens : List RefreshTokenRecord) : Prop where
  tokenId : (tokens.map RefreshTokenRecord.tokenId).Nodup
  refreshHash : (tokens.map RefreshTokenRecord.refreshHash).Nodup
  userId : ∀ row ∈ tokens, row.userId ∈ tables.users
  deviceId : ∀ row ∈ tokens, row.deviceId ∈ tables.devices.rows.map StoredDevice.deviceId
  replacedBy : ∀ row ∈ tokens, ∀ next ∈ row.replacedBy,
    next ∈ tokens.map RefreshTokenRecord.tokenId

instance (tables : AuthTables) (tokens : List RefreshTokenRecord) :
    Decidable (TokensSchema tables tokens) :=
  decidable_of_iff
    ((tokens.map RefreshTokenRecord.tokenId).Nodup ∧
      (tokens.map RefreshTokenRecord.refreshHash).Nodup ∧
      (∀ row ∈ tokens, row.userId ∈ tables.users) ∧
      (∀ row ∈ tokens, row.deviceId ∈ tables.devices.rows.map StoredDevice.deviceId) ∧
      ∀ row ∈ tokens, ∀ next ∈ row.replacedBy, next ∈ tokens.map RefreshTokenRecord.tokenId)
    ⟨fun ⟨h₁, h₂, h₃, h₄, h₅⟩ => ⟨h₁, h₂, h₃, h₄, h₅⟩,
      fun ⟨h₁, h₂, h₃, h₄, h₅⟩ => ⟨h₁, h₂, h₃, h₄, h₅⟩⟩

/-- `/^[0-9a-f]{8}-[0-9a-f]{4}-[0-9a-f]{4}-[0-9a-f]{4}-[0-9a-f]{12}$/i`. -/
def isUuid (value : String) : Bool :=
  let isHex (c : Char) : Bool := hexDigits.contains c.toLower
  let groups := value.toList.splitOnP (· == '-')
  groups.map List.length == [8, 4, 4, 4, 12] && groups.all fun group => group.all isHex

/-- `getDevice`. -/
def AuthTables.getDevice (tables : AuthTables) (deviceId : String) : Option StoredDevice :=
  if isUuid deviceId then tables.devices.get? deviceId else none

/-- `getMember`. -/
def AuthTables.getMember (tables : AuthTables) (vaultId userId : String) : Option Role :=
  if isUuid vaultId && isUuid userId then (tables.roles.get? (vaultId, userId)).map Prod.snd
  else none

/-! ### The calls -/

/-- `hashToken`. -/
def hashToken (P : Platform) (token : String) : String :=
  String.ofList (toHex (P.sha256 (encodeText token)).1)

/-- What the access token of a call will say. -/
structure IssuedClaims where
  userId : String
  deviceId : String
  vaultId : String
  role : Role
  deriving DecidableEq, Repr

/-- What `randomUUID()` gives a call: the two halves of its new token, and the id of its row. -/
structure RefreshDraws where
  left : String
  right : String
  tokenId : String
  deriving DecidableEq, Repr

/-- The token that is made of the draws. -/
def RefreshDraws.token (draws : RefreshDraws) : String :=
  "r." ++ draws.left ++ "." ++ draws.right

/-- `createRefreshToken`: the row of a new token. -/
def createRefreshToken (P : Platform) (draws : RefreshDraws) (now : Time) (userId deviceId : String)
    (days : ℕ := 30) : RefreshTokenRecord :=
  { tokenId := draws.tokenId, userId, deviceId, refreshHash := hashToken P draws.token,
    expiresAt := now + days * 86400000, revoked := false }

/-- An error of the database. -/
inductive SqlError
  /-- `40001`. -/
  | serializationFailure
  | constraintViolation
  deriving DecidableEq, Repr

/-- What a call throws. -/
inductive RefreshFailure
  | sync (error : SyncError)
  | database (error : SqlError)
  deriving DecidableEq, Repr

/-- A transaction: what it is to write, the number of the attempt, and its `now()`. -/
structure RefreshTx where
  next : RefreshTokenRecord
  claims : IssuedClaims
  attempt : ℕ
  startedAt : Time
  deriving DecidableEq, Repr

/-- How far a call has come. -/
inductive RefreshPhase
  /-- Before it reads the row. -/
  | requested
  /-- The row is valid; before `issue`. -/
  | read (record : RefreshTokenRecord)
  /-- Before `BEGIN`. -/
  | issued (next : RefreshTokenRecord) (claims : IssuedClaims) (attempt : ℕ)
  /-- Before the `UPDATE`. -/
  | begun (tx : RefreshTx)
  /-- After the `UPDATE`, with the row that it returned. -/
  | updated (tx : RefreshTx) (row : Option RefreshTokenRecord)
  /-- After the `INSERT`. -/
  | inserted (tx : RefreshTx) (row : RefreshTokenRecord)
  /-- After the `COMMIT`. -/
  | rotated (next : RefreshTokenRecord) (claims : IssuedClaims)
  | failed (error : RefreshFailure)
  deriving DecidableEq, Repr

/-- A call of `refresh` with a token. -/
structure RefreshCall where
  token : String
  draws : RefreshDraws
  phase : RefreshPhase := .requested
  deriving DecidableEq, Repr

/-- The tables as they are committed, and the calls. -/
structure RefreshServer where
  tables : AuthTables
  calls : List RefreshCall

/-- The next statement of a call; the database may report that it cannot serialize the
transaction. -/
structure RefreshEvent where
  call : ℕ
  now : Time
  unserializable : Bool := false
  deriving DecidableEq, Repr

namespace RefreshServer

/-- Calls of `refresh` with the same token. -/
def start (tables : AuthTables) (token : String) (draws : List RefreshDraws) : RefreshServer where
  tables := tables
  calls := draws.map fun draws => { token, draws }

/-- The call enters the phase. -/
def enter (s : RefreshServer) (i : ℕ) (phase : RefreshPhase) : RefreshServer :=
  { s with calls := s.calls.modify i fun call => { call with phase } }

end RefreshServer

/-! ### The statements -/

/-- `'Invalid refresh token'`. -/
def invalidRefreshToken : RefreshPhase :=
  .failed (.sync { code := .UNAUTHENTICATED, message := "Invalid refresh token" })

/-- `getRefreshTokenByHash` and the check of the row. -/
def readToken (P : Platform) (tables : AuthTables) (call : RefreshCall) (now : Time) :
    RefreshPhase :=
  match tables.tokens.find? fun row => row.refreshHash == hashToken P call.token with
  | none => invalidRefreshToken
  | some record =>
    if record.revoked || record.expiresAt ≤ now then invalidRefreshToken else .read record

/-- The `issue` of `AuthService.refresh`. -/
def issueClaims (tables : AuthTables) (record : RefreshTokenRecord) :
    Except SyncError IssuedClaims :=
  let notValid := { code := .DEVICE_REVOKED, message := "Device is not valid" }
  match tables.getDevice record.deviceId with
  | none => .error notValid
  | some device =>
    if device.revoked || device.userId ≠ record.userId then .error notValid
    else match tables.getMember device.vaultId record.userId with
      | none => .error { code := .FORBIDDEN, message := "No vault access" }
      | some role =>
        .ok { userId := record.userId, deviceId := device.deviceId, vaultId := device.vaultId,
              role }

/-- `issue`, and the row of the next token. -/
def issueToken (P : Platform) (tables : AuthTables) (call : RefreshCall)
    (record : RefreshTokenRecord) (now : Time) : RefreshPhase :=
  match issueClaims tables record with
  | .error error => .failed (.sync error)
  | .ok claims =>
    .issued (createRefreshToken P call.draws now record.userId record.deviceId) claims 0

/-- `maxRetries` of `withTx`. -/
def maxTxAttempts : ℕ := 3

/-- `ROLLBACK`; `withTx` tries again where the database could not serialize. -/
def abortTx (tx : RefreshTx) (error : SqlError) : RefreshPhase :=
  if error = .serializationFailure ∧ tx.attempt + 1 < maxTxAttempts then
    .issued tx.next tx.claims (tx.attempt + 1)
  else .failed (.database error)

/-- `WHERE refresh_hash=$1 AND revoked=false AND expires_at > now()`. -/
def RefreshTokenRecord.usable (row : RefreshTokenRecord) (hash : String) (now : Time) : Bool :=
  row.refreshHash == hash && !row.revoked && decide (now < row.expiresAt)

/-- `SET revoked=true,replaced_by=$2`. -/
def RefreshTokenRecord.replaced (row : RefreshTokenRecord) (next : String) : RefreshTokenRecord :=
  { row with revoked := true, replacedBy := some next }

/-- The rows after the `UPDATE`. -/
def replaceRows (hash : String) (tx : RefreshTx) (tokens : List RefreshTokenRecord) :
    List RefreshTokenRecord :=
  tokens.map fun row =>
    if row.usable hash tx.startedAt then row.replaced tx.next.tokenId else row

/-- Whether another call holds the row since its `UPDATE`. -/
def RefreshServer.locked (s : RefreshServer) (i : ℕ) (tokenId : String) : Bool :=
  s.calls.zipIdx.any fun (call, j) => j ≠ i && match call.phase with
    | .updated _ (some row) | .inserted _ row => row.tokenId == tokenId
    | _ => false

/-- Whether another call has inserted a row with the id or the hash, and not yet ended. -/
def RefreshServer.claimed (s : RefreshServer) (i : ℕ) (next : RefreshTokenRecord) : Bool :=
  s.calls.zipIdx.any fun (call, j) => j ≠ i && match call.phase with
    | .inserted tx _ => tx.next.tokenId == next.tokenId || tx.next.refreshHash == next.refreshHash
    | _ => false

/-- The `UPDATE` of `replaceRefreshToken`, with its constraints at the end. -/
def updateTokens (P : Platform) (s : RefreshServer) (i : ℕ) (call : RefreshCall) (tx : RefreshTx) :
    RefreshServer :=
  let hash := hashToken P call.token
  match s.tables.tokens.find? fun row => row.usable hash tx.startedAt with
  | none => s.enter i (.updated tx none)
  | some row =>
    if s.locked i row.tokenId then s
    else if TokensSchema s.tables (replaceRows hash tx s.tables.tokens) then
      s.enter i (.updated tx (some (row.replaced tx.next.tokenId)))
    else s.enter i (abortTx tx .constraintViolation)

/-- The rows after the `INSERT`. -/
def rotatedRows (P : Platform) (call : RefreshCall) (tx : RefreshTx)
    (tokens : List RefreshTokenRecord) : List RefreshTokenRecord :=
  replaceRows (hashToken P call.token) tx tokens ++ [tx.next]

/-- The `INSERT` of `replaceRefreshToken`. -/
def insertToken (P : Platform) (s : RefreshServer) (i : ℕ) (call : RefreshCall) (tx : RefreshTx)
    (row : RefreshTokenRecord) : RefreshServer :=
  if s.claimed i tx.next then s
  else if TokensSchema s.tables (rotatedRows P call tx s.tables.tokens) then
    s.enter i (.inserted tx row)
  else s.enter i (abortTx tx .constraintViolation)

/-- The next statement of a call. -/
def refreshStep (P : Platform) (s : RefreshServer) (e : RefreshEvent) : RefreshServer :=
  match s.calls[e.call]? with
  | none => s
  | some call =>
    match call.phase with
    | .requested => s.enter e.call (readToken P s.tables call e.now)
    | .read record => s.enter e.call (issueToken P s.tables call record e.now)
    | .issued next claims attempt =>
      s.enter e.call (.begun { next, claims, attempt, startedAt := e.now })
    | .begun tx =>
      if e.unserializable then s.enter e.call (abortTx tx .serializationFailure)
      else updateTokens P s e.call call tx
    | .updated tx none =>
      -- nothing to insert: the transaction commits, and `rotateRefresh` throws
      if e.unserializable then s.enter e.call (abortTx tx .serializationFailure)
      else s.enter e.call invalidRefreshToken
    | .updated tx (some row) =>
      if e.unserializable then s.enter e.call (abortTx tx .serializationFailure)
      else insertToken P s e.call call tx row
    | .inserted tx _ =>
      if e.unserializable then s.enter e.call (abortTx tx .serializationFailure)
      else
        { tables := { s.tables with tokens := rotatedRows P call tx s.tables.tokens },
          calls := (s.enter e.call (.rotated tx.next tx.claims)).calls }
    | .rotated .. | .failed _ => s

/-! ### The property -/

/-- The rows that the calls have committed. -/
def RefreshServer.successors (s : RefreshServer) : List RefreshTokenRecord :=
  s.calls.filterMap fun call =>
    match call.phase with
    | .rotated next _ => some next
    | _ => none

/-- The call has returned or thrown. -/
def RefreshPhase.ended : RefreshPhase → Bool
  | .rotated .. | .failed _ => true
  | _ => false

/-- **The token was rotated once**: all calls have ended, one of them has committed, and the
table is as it was but for the token, which is revoked, and its one successor. -/
def RotatedOnce (P : Platform) (token : String) (before : AuthTables) (s : RefreshServer) : Prop :=
  ∃ next, s.successors = [next] ∧ (∀ call ∈ s.calls, call.phase.ended = true) ∧
    next.revoked = false ∧ TokensSchema s.tables s.tables.tokens ∧
    s.tables.tokens = before.tokens.map (fun row =>
      if row.refreshHash = hashToken P token then row.replaced next.tokenId else row) ++ [next]

/-! ### The two statements of the transaction -/

section

variable {P : Platform} {hash : String} {tx : RefreshTx} {tables : AuthTables}
  {tokens : List RefreshTokenRecord} {call : RefreshCall} {row : RefreshTokenRecord}

@[simp] theorem tokenId_replaced (row : RefreshTokenRecord) (next : String) :
    (row.replaced next).tokenId = row.tokenId := rfl

/-- The `UPDATE` leaves the ids. -/
theorem map_tokenId_replaceRows (hash : String) (tx : RefreshTx)
    (tokens : List RefreshTokenRecord) :
    (replaceRows hash tx tokens).map RefreshTokenRecord.tokenId
      = tokens.map RefreshTokenRecord.tokenId := by
  rw [replaceRows, List.map_map]
  refine List.map_congr_left fun row _ => ?_
  rw [Function.comp_apply, apply_ite RefreshTokenRecord.tokenId, tokenId_replaced, ite_self]

/-- **An `UPDATE` that meets its constraints names a row that is there already**: the row it
writes refers to the successor, and the foreign key is checked before the `INSERT`. -/
theorem mem_of_schema_replaceRows
    (hrow : (tokens.find? fun row => row.usable hash tx.startedAt) = some row)
    (h : TokensSchema tables (replaceRows hash tx tokens)) :
    tx.next.tokenId ∈ tokens.map RefreshTokenRecord.tokenId := by
  have husable : row.usable hash tx.startedAt = true :=
    List.find?_some (p := fun row => RefreshTokenRecord.usable row hash tx.startedAt) hrow
  have hwritten : row.replaced tx.next.tokenId ∈ replaceRows hash tx tokens :=
    List.mem_map.mpr ⟨row, List.mem_of_find?_eq_some hrow, if_pos husable⟩
  rw [← map_tokenId_replaceRows hash tx tokens]
  exact h.replacedBy _ hwritten _ rfl

/-- **The `INSERT` of a row whose id is there breaks the primary key.** -/
theorem not_schema_rotatedRows (h : tx.next.tokenId ∈ tokens.map RefreshTokenRecord.tokenId) :
    ¬ TokensSchema tables (rotatedRows P call tx tokens) := by
  intro hschema
  have hnodup := hschema.tokenId
  rw [rotatedRows, List.map_append, map_tokenId_replaceRows] at hnodup
  exact (List.disjoint_of_nodup_append hnodup) h (List.mem_singleton.mpr rfl)

/-! ### No call commits -/

/-- What a call has done while the rows are these: its `UPDATE` has passed at most for an id that
is there, and it has done nothing after that. -/
def Uncommitted (tokens : List RefreshTokenRecord) : RefreshPhase → Prop
  | .updated tx (some _) => tx.next.tokenId ∈ tokens.map RefreshTokenRecord.tokenId
  | .inserted .. | .rotated .. => False
  | _ => True

/-- The tables are as they were, and no call has written to them. -/
structure TablesKept (before : AuthTables) (s : RefreshServer) : Prop where
  tables : s.tables = before
  uncommitted : ∀ call ∈ s.calls, Uncommitted before.tokens call.phase

theorem uncommitted_readToken (now : Time) :
    Uncommitted tokens (readToken P tables call now) := by
  unfold readToken
  split
  · trivial
  · split <;> trivial

theorem uncommitted_issueToken (record : RefreshTokenRecord) (now : Time) :
    Uncommitted tokens (issueToken P tables call record now) := by
  unfold issueToken
  split <;> trivial

theorem uncommitted_abortTx (tx : RefreshTx) (error : SqlError) :
    Uncommitted tokens (abortTx tx error) := by
  unfold abortTx
  split <;> trivial

variable {before : AuthTables} {s : RefreshServer}

theorem TablesKept.enter (h : TablesKept before s) (i : ℕ) {phase : RefreshPhase}
    (hphase : Uncommitted before.tokens phase) : TablesKept before (s.enter i phase) where
  tables := h.tables
  uncommitted call hcall := by
    obtain ⟨j, hj⟩ := List.mem_iff_getElem?.mp hcall
    rw [RefreshServer.enter, List.getElem?_modify] at hj
    obtain ⟨old, hold, hnew⟩ := Option.map_eq_some_iff.mp hj
    split at hnew
    · rw [← hnew]
      exact hphase
    · rw [← hnew]
      exact h.uncommitted old (List.mem_iff_getElem?.mpr ⟨j, hold⟩)

theorem TablesKept.abort (h : TablesKept before s) (i : ℕ) (tx : RefreshTx) (error : SqlError) :
    TablesKept before (s.enter i (abortTx tx error)) :=
  h.enter i (uncommitted_abortTx tx error)

theorem tablesKept_updateTokens (h : TablesKept before s) (i : ℕ) (call : RefreshCall)
    (tx : RefreshTx) : TablesKept before (updateTokens P s i call tx) := by
  unfold updateTokens
  dsimp only
  split
  · exact h.enter i trivial
  · next row hrow =>
    split
    · exact h
    · split
      · next hschema =>
        rw [h.tables] at hrow hschema
        exact h.enter i (mem_of_schema_replaceRows hrow hschema)
      · exact h.abort i tx _

theorem tablesKept_insertToken (h : TablesKept before s) (i : ℕ) (call : RefreshCall)
    {tx : RefreshTx} (row : RefreshTokenRecord)
    (hid : tx.next.tokenId ∈ before.tokens.map RefreshTokenRecord.tokenId) :
    TablesKept before (insertToken P s i call tx row) := by
  unfold insertToken
  split
  · exact h
  · split
    · next hschema =>
      rw [h.tables] at hschema
      exact absurd hschema (not_schema_rotatedRows hid)
    · exact h.abort i tx _

/-- No statement of any call changes the tables. -/
theorem tablesKept_refreshStep (h : TablesKept before s) (e : RefreshEvent) :
    TablesKept before (refreshStep P s e) := by
  unfold refreshStep
  split
  · exact h
  next call hcall =>
  have hphase := h.uncommitted call (List.mem_of_getElem? hcall)
  split
  · exact h.enter _ (uncommitted_readToken e.now)
  · exact h.enter _ (uncommitted_issueToken _ e.now)
  · exact h.enter _ trivial
  · next tx _ =>
    split
    · exact h.abort _ tx _
    · exact tablesKept_updateTokens h _ call tx
  · next tx _ =>
    split
    · exact h.abort _ tx _
    · exact h.enter _ trivial
  · next tx row hupdated =>
    rw [hupdated] at hphase
    split
    · exact h.abort _ tx _
    · exact tablesKept_insertToken h _ call row hphase
  · next tx _ hinserted =>
    rw [hinserted] at hphase
    exact hphase.elim
  · exact h
  · exact h

/-- **The table stays as it was**, in whatever order the statements come. -/
theorem tablesKept_final (P : Platform) (tables : AuthTables) (token : String)
    (draws : List RefreshDraws) (schedule : List RefreshEvent) :
    TablesKept tables
      (Run.final (refreshStep P) (.start tables token draws) schedule) := by
  have hstart : TablesKept tables (RefreshServer.start tables token draws) := by
    refine ⟨rfl, fun call hcall => ?_⟩
    obtain ⟨draw, -, rfl⟩ := List.mem_map.mp hcall
    trivial
  have hrun : Run.Throughout (refreshStep P) (TablesKept tables)
      (RefreshServer.start tables token draws) schedule :=
    Run.throughout_of_step (I := TablesKept tables) (fun _ e h => tablesKept_refreshStep h e)
      hstart schedule
  exact hrun.final

theorem TablesKept.successors (h : TablesKept before s) : s.successors = [] := by
  refine List.filterMap_eq_nil_iff.mpr fun call hcall => ?_
  have hphase := h.uncommitted call hcall
  split
  · next hrotated =>
    rw [hrotated] at hphase
    exact hphase.elim
  · rfl

end

/-- **No refresh token is ever rotated.**  Whatever the table and the calls, the `UPDATE` fails
on the foreign key of `replaced_by`, for the row it names is inserted only after it. -/
theorem not_rotatedOnce (P : Platform) (tables : AuthTables) (token : String)
    (draws : List RefreshDraws) (schedule : List RefreshEvent) :
    ¬ RotatedOnce P token tables
      (Run.final (refreshStep P) (.start tables token draws) schedule) := by
  rintro ⟨next, hone, -⟩
  rw [(tablesKept_final P tables token draws schedule).successors] at hone
  exact List.cons_ne_nil next [] hone.symm

/-! ### Two refreshes at once -/

/-- SHA-256 of the tokens of the sample. -/
def sampleTokenDigests : List (String × { bs : Bytes // bs.length = 32 }) :=
  [
    ("r.0b6b3c5e-1a4d-4f0e-9c57-2f1d3a6e8b90.7d2c9a41-53be-4c8f-8f6a-90e1b2c3d4e5", ⟨[
      0x47, 0x7a, 0x3e, 0xda, 0xe4, 0xed, 0xf7, 0x17, 0xd4, 0xe8, 0x26,
      0xa2, 0xc6, 0xe3, 0x49, 0x50, 0xc5, 0x48, 0x1b, 0x5a, 0xdd, 0x07,
      0x3e, 0x10, 0x5b, 0x31, 0x31, 0x15, 0x32, 0x87, 0x92, 0xf4], rfl⟩),
    ("r.a1f0c2d3-6b7e-4a58-9d0c-1e2f3a4b5c6d.b2e1d3c4-7f60-4b19-8a2d-3c4d5e6f7a81", ⟨[
      0xba, 0x47, 0x63, 0x13, 0x33, 0x85, 0x8f, 0x8d, 0x6f, 0xdc, 0x1b,
      0x84, 0x77, 0x85, 0x30, 0x7b, 0x37, 0xcc, 0x53, 0x43, 0x87, 0x42,
      0x28, 0xf4, 0xec, 0xe6, 0x5d, 0xd3, 0xcb, 0x6c, 0x64, 0xe8], rfl⟩),
    ("r.c3d2e1f0-8a91-4c7b-b5e6-4f5a6b7c8d92.d4c3b2a1-9b82-4d6a-a7f8-5a6b7c8d9ea3", ⟨[
      0x81, 0x04, 0xde, 0xc7, 0xcf, 0x03, 0x79, 0xbf, 0x55, 0x75, 0xf9,
      0xe2, 0x2b, 0x38, 0x46, 0xa3, 0xdc, 0xb2, 0xd0, 0x69, 0x3d, 0xff,
      0x88, 0xa9, 0x0a, 0x85, 0x5a, 0x69, 0xdd, 0x23, 0xe7, 0xad], rfl⟩)
  ]

theorem length_zeros : (List.replicate 32 (0 : UInt8)).length = 32 := List.length_replicate

/-- A platform that agrees with the real one on the tokens of the sample. -/
def sampleTokenPlatform : Platform where
  sha256 bytes :=
    match sampleTokenDigests.find? fun entry => encodeText entry.1 = bytes with
    | some entry => entry.2
    | none => ⟨List.replicate 32 0, length_zeros⟩
  normalizeNFC := samplePlatform.normalizeNFC
  toLowerCase := samplePlatform.toLowerCase
  decodeLossy := samplePlatform.decodeLossy

/-- A refresh token as the service draws it. -/
def sampleRefreshToken : String :=
  "r.0b6b3c5e-1a4d-4f0e-9c57-2f1d3a6e8b90.7d2c9a41-53be-4c8f-8f6a-90e1b2c3d4e5"

/-- A user, an owner, with a device and its token. -/
def sampleAuthTables : AuthTables where
  users := ["11111111-1111-4111-8111-111111111111"]
  devices := Table.empty.set
    { deviceId := "22222222-2222-4222-8222-222222222222",
      userId := "11111111-1111-4111-8111-111111111111",
      vaultId := "33333333-3333-4333-8333-333333333333",
      lastDeviceSeq := 0, lastSeq := 0, revoked := false }
  roles := Table.empty.set
    (("33333333-3333-4333-8333-333333333333", "11111111-1111-4111-8111-111111111111"), .owner)
  tokens := [
    { tokenId := "44444444-4444-4444-8444-444444444444",
      userId := "11111111-1111-4111-8111-111111111111",
      deviceId := "22222222-2222-4222-8222-222222222222",
      refreshHash := hashToken sampleTokenPlatform sampleRefreshToken,
      expiresAt := 2592000000, revoked := false }]

/-- The draws of two refreshes. -/
def sampleRefreshDraws : List RefreshDraws :=
  [
    { left := "a1f0c2d3-6b7e-4a58-9d0c-1e2f3a4b5c6d",
      right := "b2e1d3c4-7f60-4b19-8a2d-3c4d5e6f7a81",
      tokenId := "55555555-5555-4555-8555-555555555555" },
    { left := "c3d2e1f0-8a91-4c7b-b5e6-4f5a6b7c8d92",
      right := "d4c3b2a1-9b82-4d6a-a7f8-5a6b7c8d9ea3",
      tokenId := "66666666-6666-4666-8666-666666666666" }
  ]

/-- Both calls take their statements in turn. -/
def sampleRefreshSchedule : List RefreshEvent :=
  (List.range 4).flatMap fun _ => [{ call := 0, now := 1000 }, { call := 1, now := 1000 }]

/-- Both calls find the token valid, and both fail on the `UPDATE`. -/
theorem not_rotatedOnce_sampleRefresh :
    TokensSchema sampleAuthTables sampleAuthTables.tokens ∧
    (∀ row ∈ sampleAuthTables.tokens,
      row.usable (hashToken sampleTokenPlatform sampleRefreshToken) 1000 = true) ∧
    (Run.final (refreshStep sampleTokenPlatform)
        (.start sampleAuthTables sampleRefreshToken sampleRefreshDraws)
        sampleRefreshSchedule).calls.map RefreshCall.phase
      = [.failed (.database .constraintViolation), .failed (.database .constraintViolation)] ∧
    ¬ RotatedOnce sampleTokenPlatform sampleRefreshToken sampleAuthTables
      (Run.final (refreshStep sampleTokenPlatform)
        (.start sampleAuthTables sampleRefreshToken sampleRefreshDraws) sampleRefreshSchedule) := by
  refine ⟨by decide +kernel, by decide +kernel, by decide +kernel, ?_⟩
  rintro ⟨next, hone, -⟩
  have hnone : (Run.final (refreshStep sampleTokenPlatform)
      (.start sampleAuthTables sampleRefreshToken sampleRefreshDraws)
      sampleRefreshSchedule).successors = [] := by
    decide +kernel
  rw [hnone] at hone
  exact List.cons_ne_nil next [] hone.symm

end ObsidianSync
