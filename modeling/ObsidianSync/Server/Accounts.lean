import Mathlib.Logic.Relation
import ObsidianSync.Server.Migrations
import ObsidianSync.Server.Tokens
import ObsidianSync.Socket.LoginLock

/-!
# Accounts and memberships

`AuthService` over the tables: users register, vaults are created, owners make members, and a
login issues the tokens of a device.  Each call is a few statements, and between them those of
other calls may come: an owner may have lost the vault between the check of `addMember` and its
`INSERT`.  The operator may revoke devices and remove members by hand.

Membership is handed on.  Whoever is a member of a vault was made one by someone who was an owner
then, and so on back to the call that created the vault.

`bcrypt` is a parameter; the signature of the access token is not modelled, only its claims.

## Main definitions

* `AccountTables` — the tables, with the statements of `PgAuthRepository`.
* `AccountCall`, `AccountPhase` — a call of `AuthService`, and how far it has come.
* `accountStep` — the next statement of a call, a new call, or the operator.
* `Granted` — what has been handed on from the creation of a vault.
* `EntitlesLogins` — what a login that returned tokens has shown.

## Main results

* `granted_run` — **nobody is a member of a vault but by a chain of owners from its creation.**
* `entitled_run` — **tokens are issued to those who know the password of a registered user, for a
  vault they were made a member of, with the role they had.**
-/

namespace ObsidianSync

/-- `bcryptjs`. -/
structure Bcrypt where
  hash : (salt password : String) → String
  compare : (password hash : String) → Bool

/-! ### The tables -/

/-- A row of `users`. -/
structure Account where
  userId : String
  username : String
  pwHash : String
  deriving DecidableEq, Repr

/-- The tables behind `AuthService`: of `vaults` the ids and names. -/
structure AccountTables where
  accounts : List Account := []
  vaults : List (String × String) := []
  roles : Table (Prod.fst : (String × String) × Role → String × String) := Table.empty
  devices : Table StoredDevice.deviceId := Table.empty
  tokens : List RefreshTokenRecord := []

namespace AccountTables

variable (tables : AccountTables)

/-- The tables behind a refresh. -/
def auth : AuthTables where
  users := tables.accounts.map Account.userId
  devices := tables.devices
  roles := tables.roles
  tokens := tables.tokens

/-- `createUser`; `none` where a constraint is violated, as in the others. -/
def createUser (account : Account) : Option AccountTables :=
  if account.userId ∈ tables.accounts.map Account.userId ∨
      account.username ∈ tables.accounts.map Account.username then none
  else some { tables with accounts := tables.accounts ++ [account] }

/-- The account with a name. -/
def getUserByUsername (username : String) : Option Account :=
  tables.accounts.find? fun account => account.username = username

/-- The `INSERT` of `createVault`. -/
def insertVault (vaultId name : String) : Option AccountTables :=
  if vaultId ∈ tables.vaults.map Prod.fst then none
  else some { tables with vaults := tables.vaults ++ [(vaultId, name)] }

/-- The row of a member is inserted or gets the role, if the vault and the user are there. -/
def setMember (vaultId userId : String) (role : Role) : Option AccountTables :=
  if vaultId ∈ tables.vaults.map Prod.fst ∧ userId ∈ tables.accounts.map Account.userId then
    some { tables with roles := tables.roles.set ((vaultId, userId), role) }
  else none

/-- The row of a new device, if the vault and the user are there. -/
def createDevice (deviceId userId vaultId : String) : Option AccountTables :=
  if deviceId ∈ tables.devices.rows.map StoredDevice.deviceId ∨
      vaultId ∉ tables.vaults.map Prod.fst ∨ userId ∉ tables.accounts.map Account.userId then none
  else
    let device := { deviceId, userId, vaultId, lastDeviceSeq := 0, lastSeq := 0, revoked := false }
    some { tables with devices := tables.devices.set device }

/-- The row of a refresh token, if the schema takes it. -/
def saveRefreshToken (record : RefreshTokenRecord) : Option AccountTables :=
  if TokensSchema tables.auth (tables.tokens ++ [record]) then
    some { tables with tokens := tables.tokens ++ [record] }
  else none

end AccountTables

/-! ### The calls -/

/-- The length of a JavaScript string. -/
def utf16Length (text : String) : ℕ := (text.toList.flatMap utf16Units).length

/-- `/^[A-Za-z0-9_.-]{3,64}$/`. -/
def isUsername (username : String) : Bool :=
  decide (3 ≤ username.toList.length ∧ username.toList.length ≤ 64) &&
    username.toList.all fun c =>
      ('A' ≤ c && c ≤ 'Z') || ('a' ≤ c && c ≤ 'z') || ('0' ≤ c && c ≤ '9') ||
        c == '_' || c == '.' || c == '-'

/-- What a call throws. -/
inductive AccountFailure
  | thrown (failure : Failure)
  /-- A plain `Error`. -/
  | error (message : String)
  | database
  deriving DecidableEq

/-- A `SyncError` that is thrown. -/
def syncFailure (code : ErrorCode) (message : String) : AccountFailure :=
  .thrown (.sync { code, message })

/-- `validateUsername`. -/
def validateUsername (username : String) : Option AccountFailure :=
  if isUsername username then none
  else some (syncFailure .BAD_REQUEST "Username must be 3-64 chars: letters, digits, _, ., -")

/-- `validatePassword`. -/
def validatePassword (password : String) : Option AccountFailure :=
  if utf16Length password < 12 then some (.error "Password must be at least 12 characters")
  else if utf16Length password > 1024 then some (.error "Password is too long")
  else none

/-- `roleRank`. -/
def roleRank : Role → ℕ
  | .viewer => 1
  | .editor => 2
  | .owner => 3

/-- The role of a text, where there is one. -/
def roleOfText (text : String) : Option Role :=
  if text = "owner" then some .owner
  else if text = "editor" then some .editor
  else if text = "viewer" then some .viewer
  else none

/-- `requireRole`. -/
def AuthService.requireRole (tables : AccountTables) (vaultId userId : String) (minimum : Role) :
    Except AccountFailure Role :=
  match tables.auth.getMember vaultId userId with
  | none => .error (syncFailure .FORBIDDEN "No vault access")
  | some role =>
    if roleRank role < roleRank minimum then
      .error (syncFailure .FORBIDDEN "Insufficient role")
    else .ok role

/-- The requests to the service. -/
inductive AccountRequest
  | createUser (username password : String)
  | createVault (name ownerUserId : String)
  | addMember (vaultId actorUserId targetUserId role : String)
  | login (ip username password vaultId deviceName : String)
  deriving DecidableEq, Repr

/-- What a request is answered with. -/
inductive AccountAnswer
  | user (userId username : String)
  | vault (vaultId name : String)
  | added
  /-- The claims of the access token, and the refresh token. -/
  | tokens (claims : IssuedClaims) (refreshToken : String)
  deriving DecidableEq, Repr

/-- How far a call has come. -/
inductive AccountPhase
  /-- Before its first statement. -/
  | requested
  /-- `createVault` after the vault was inserted. -/
  | inserted (vaultId : String)
  /-- `addMember` after its checks. -/
  | allowed (role : Role)
  /-- `login` after the password was compared. -/
  | known (account : Account)
  /-- `login` after the membership was read. -/
  | admitted (account : Account) (role : Role)
  /-- `login` after the device was inserted. -/
  | enrolled (claims : IssuedClaims)
  | returned (answer : AccountAnswer)
  | threw (failure : AccountFailure)
  deriving DecidableEq

/-- A request and how far it has come. -/
structure AccountCall where
  request : AccountRequest
  phase : AccountPhase := .requested
  deriving DecidableEq

/-- What has been handed on: the calls that passed their checks, in their order. -/
inductive Grant
  /-- `createVault` has inserted the vault for its owner. -/
  | created (vaultId ownerUserId : String)
  /-- `addMember` has found that the actor may make the target a member. -/
  | allowed (vaultId actorUserId targetUserId : String) (role : Role)
  deriving DecidableEq, Repr

/-- The tables, the limiter, the requests that were made, and the grants behind the roles. -/
structure AccountServer where
  tables : AccountTables := {}
  limiter : LoginRateLimiter
  calls : List AccountCall := []
  grants : List Grant := []

/-- What a statement takes from outside: `gen_random_uuid()`, the salt, the draws of the refresh
token, and the time. -/
structure AccountDraws where
  id : String
  salt : String
  refresh : RefreshDraws
  now : ℕ
  deriving DecidableEq, Repr

/-- What happens: requests, their statements, and what the operator does. -/
inductive AccountEvent
  | call (request : AccountRequest) (now : ℕ)
  /-- The next statement of a call. -/
  | statement (i : ℕ) (draws : AccountDraws) (ends : StatementEnd)
  /-- The operator revokes a device, or removes a member. -/
  | revokeDevice (deviceId : String)
  | removeMember (vaultId userId : String)
  deriving DecidableEq, Repr

section

variable (B : Bcrypt) (P : Platform) (lower : String → String)

/-- What a call does before its first statement: it may throw. -/
def accountRequested (limiter : LoginRateLimiter) (now : ℕ) :
    AccountRequest → AccountPhase × LoginRateLimiter
  | .createUser username password =>
    match validateUsername username, validatePassword password with
    | some failure, _ | none, some failure => (.threw failure, limiter)
    | none, none => (.requested, limiter)
  | .createVault name _ =>
    if name = "" ∨ utf16Length name > 200 then
      (.threw (syncFailure .BAD_REQUEST "Invalid vault name"), limiter)
    else (.requested, limiter)
  | .addMember .. => (.requested, limiter)
  | .login ip username _ _ _ =>
    match limiter.assertAllowed lower ip username now with
    | (.error failure, limiter) => (.threw (.thrown failure), limiter)
    | (.ok (), limiter) => (.requested, limiter)

/-- A statement that writes, and the phase after it. -/
def written (ends : StatementEnd) (tables : AccountTables) (result : Option AccountTables)
    (phase : AccountPhase) : AccountTables × AccountPhase :=
  match ends, result with
  | .done, some tables' => (tables', phase)
  | .lost, some tables' => (tables', .threw .database)
  | _, _ => (tables, .threw .database)

/-- A statement that reads. -/
def readEnd (ends : StatementEnd) (phase : AccountPhase) : AccountPhase :=
  if ends = .done then phase else .threw .database

/-- `addMember` before its `INSERT`. -/
def checkAddMember (tables : AccountTables) (vaultId actorUserId role : String) : AccountPhase :=
  match AuthService.requireRole tables vaultId actorUserId .owner, roleOfText role with
  | .error failure, _ => .threw failure
  | .ok _, none => .threw (syncFailure .BAD_REQUEST "Invalid role")
  | .ok _, some role => .allowed role

/-- `login` with the row of the user, and the password. -/
def checkPassword (tables : AccountTables) (username password : String) : AccountPhase :=
  let invalid := syncFailure .UNAUTHENTICATED "Invalid username or password"
  match tables.getUserByUsername username with
  | none => .threw invalid
  | some account =>
    -- `verifyPassword`
    if account.pwHash ≠ "" ∧ B.compare password account.pwHash then .known account
    else .threw invalid

/-- `login` with the row of the membership. -/
def checkAdmission (tables : AccountTables) (vaultId : String) (account : Account) : AccountPhase :=
  match tables.auth.getMember vaultId account.userId with
  | none => .threw (syncFailure .FORBIDDEN "No vault access")
  | some role => .admitted account role

/-- The next statement of a call. -/
def accountStatement (tables : AccountTables) (draws : AccountDraws) (ends : StatementEnd)
    (call : AccountCall) : AccountTables × AccountPhase :=
  match call.request, call.phase with
  | .createUser username password, .requested =>
    let account := { userId := draws.id, username, pwHash := B.hash draws.salt password }
    written ends tables (tables.createUser account) (.returned (.user draws.id username))
  | .createVault name _, .requested =>
    written ends tables (tables.insertVault draws.id name) (.inserted draws.id)
  | .createVault name ownerUserId, .inserted vaultId =>
    written ends tables (tables.setMember vaultId ownerUserId .owner)
      (.returned (.vault vaultId name))
  | .addMember vaultId actorUserId _ role, .requested =>
    (tables, readEnd ends (checkAddMember tables vaultId actorUserId role))
  | .addMember vaultId _ targetUserId _, .allowed role =>
    written ends tables (tables.setMember vaultId targetUserId role) (.returned .added)
  | .login _ username password _ _, .requested =>
    (tables, readEnd ends (checkPassword B tables username password))
  | .login _ _ _ vaultId _, .known account =>
    (tables, readEnd ends (checkAdmission tables vaultId account))
  | .login _ _ _ vaultId _, .admitted account role =>
    written ends tables (tables.createDevice draws.id account.userId vaultId)
      (.enrolled { userId := account.userId, deviceId := draws.id, vaultId, role })
  | .login .., .enrolled claims =>
    let record := createRefreshToken P draws.refresh draws.now claims.userId claims.deviceId
    written ends tables (tables.saveRefreshToken record)
      (.returned (.tokens claims draws.refresh.token))
  | _, phase => (tables, phase)

/-- The limiter after a statement of a login: `recordSuccess` with the tokens, `recordFailure`
with a `SyncError`. -/
def countLogin (limiter : LoginRateLimiter) (now : ℕ) (request : AccountRequest)
    (before after : AccountPhase) : LoginRateLimiter :=
  match request, after with
  | .login ip username _ _ _, .returned _ =>
    if before = after then limiter else limiter.recordSuccess lower ip username
  | .login ip username _ _ _, .threw (.thrown (.sync error)) =>
    if before = after ∨ error.code = .RATE_LIMITED then limiter
    else limiter.recordFailure lower ip username now
  | _, _ => limiter

/-- What a statement hands on. -/
def newGrants (request : AccountRequest) (before after : AccountPhase) : List Grant :=
  match request, before, after with
  | .createVault _ ownerUserId, .requested, .inserted vaultId => [.created vaultId ownerUserId]
  | .addMember vaultId actorUserId targetUserId _, .requested, .allowed role =>
    [.allowed vaultId actorUserId targetUserId role]
  | _, _, _ => []

/-- The server after an event. -/
def accountStep (s : AccountServer) : AccountEvent → AccountServer
  | .call request now =>
    let (phase, limiter) := accountRequested lower s.limiter now request
    { s with limiter, calls := s.calls ++ [{ request, phase }] }
  | .statement i draws ends =>
    match s.calls[i]? with
    | none => s
    | some call =>
      let (tables, phase) := accountStatement B P s.tables draws ends call
      { tables
        limiter := countLogin lower s.limiter draws.now call.request call.phase phase
        calls := s.calls.set i { call with phase }
        grants := s.grants ++ newGrants call.request call.phase phase }
  | .revokeDevice deviceId =>
    match s.tables.devices.get? deviceId with
    | none => s
    | some device =>
      { s with tables.devices := s.tables.devices.set { device with revoked := true } }
  | .removeMember vaultId userId =>
    { s with tables.roles := s.tables.roles.erase (vaultId, userId) }

end

/-! ### The property -/

/-- An owner has made another user, or the same, a member. -/
def Gave (grants : List Grant) (a b : (String × String) × Role) : Prop :=
  ∃ vaultId actorUserId targetUserId role,
    Grant.allowed vaultId actorUserId targetUserId role ∈ grants ∧
      a = ((vaultId, actorUserId), .owner) ∧ b = ((vaultId, targetUserId), role)

/-- The membership comes from the creation of the vault, through owners who handed it on. -/
def Granted (grants : List Grant) (row : (String × String) × Role) : Prop :=
  ∃ creator, Grant.created row.1.1 creator ∈ grants ∧
    Relation.ReflTransGen (Gave grants) ((row.1.1, creator), .owner) row

/-- The row is that of a call that registered the user, with a name and a password that are
allowed. -/
def Registered (B : Bcrypt) (s : AccountServer) (account : Account) : Prop :=
  ∃ call ∈ s.calls, ∃ password salt, call.request = .createUser account.username password ∧
    validateUsername account.username = none ∧ validatePassword password = none ∧
    account.pwHash = B.hash salt password

/-- The user is registered, and the password is the right one. -/
structure KnowsPassword (B : Bcrypt) (s : AccountServer) (username password : String)
    (account : Account) : Prop where
  row : account ∈ s.tables.accounts
  username : account.username = username
  password : B.compare password account.pwHash = true

/-- What a login with tokens has shown. -/
structure LoginEntitled (B : Bcrypt) (s : AccountServer) (username password vaultId : String)
    (claims : IssuedClaims) : Prop where
  vault : claims.vaultId = vaultId
  known : ∃ account, KnowsPassword B s username password account ∧ account.userId = claims.userId ∧
    Registered B s account
  granted : Granted s.grants ((vaultId, claims.userId), claims.role)
  device : ∃ device ∈ s.tables.devices.rows, device.deviceId = claims.deviceId ∧
    device.userId = claims.userId ∧ device.vaultId = vaultId

/-- The members have their memberships from the creation of the vault on, and so had those who
made them members. -/
structure HandedOn (s : AccountServer) : Prop where
  members : ∀ row ∈ s.tables.roles.rows, Granted s.grants row
  actors : ∀ vaultId actorUserId targetUserId role,
    Grant.allowed vaultId actorUserId targetUserId role ∈ s.grants →
      Granted s.grants ((vaultId, actorUserId), .owner)

/-- Tokens are returned to those who are entitled to them. -/
def EntitlesLogins (B : Bcrypt) (s : AccountServer) : Prop :=
  ∀ call ∈ s.calls, ∀ ip username password vaultId deviceName claims token,
    call.request = .login ip username password vaultId deviceName →
    call.phase = .returned (.tokens claims token) →
      LoginEntitled B s username password vaultId claims

/-! ### What stays -/

/-- Rows of users and grants are not lost, nor those of devices but for their flags. -/
structure AccountsGrow (s s' : AccountServer) : Prop where
  accounts : s.tables.accounts ⊆ s'.tables.accounts
  grants : s.grants ⊆ s'.grants
  requests : ∀ call ∈ s.calls, ∃ call' ∈ s'.calls, call'.request = call.request
  devices : ∀ device ∈ s.tables.devices.rows, ∃ device' ∈ s'.tables.devices.rows,
    device'.deviceId = device.deviceId ∧ device'.userId = device.userId ∧
      device'.vaultId = device.vaultId

section

variable {B : Bcrypt} {s s' : AccountServer} {grants grants' : List Grant}
  {row : (String × String) × Role} {account : Account} {claims : IssuedClaims}
  {username password vaultId : String}

theorem Granted.mono (hgrants : grants ⊆ grants') (h : Granted grants row) :
    Granted grants' row := by
  obtain ⟨creator, hcreated, hchain⟩ := h
  have hgave : Gave grants ≤ Gave grants' := by
    rintro a b ⟨vaultId, actor, target, role, hmem, ha, hb⟩
    exact ⟨vaultId, actor, target, role, hgrants hmem, ha, hb⟩
  exact ⟨creator, hgrants hcreated, Relation.ReflTransGen.mono hgave _ _ hchain⟩

/-- Who creates a vault is its owner. -/
theorem granted_of_created {userId : String} (h : Grant.created vaultId userId ∈ grants) :
    Granted grants ((vaultId, userId), .owner) :=
  ⟨userId, h, .refl⟩

/-- What an owner hands on is granted. -/
theorem Granted.allowed {actor target : String} {role : Role}
    (h : Granted grants ((vaultId, actor), .owner))
    (hmem : Grant.allowed vaultId actor target role ∈ grants) :
    Granted grants ((vaultId, target), role) := by
  obtain ⟨creator, hcreated, hchain⟩ := h
  exact ⟨creator, hcreated, hchain.tail ⟨vaultId, actor, target, role, hmem, rfl, rfl⟩⟩

theorem Registered.mono (hgrow : AccountsGrow s s') (h : Registered B s account) :
    Registered B s' account := by
  obtain ⟨call, hcall, password, salt, hrequest, hrest⟩ := h
  obtain ⟨call', hcall', hsame⟩ := hgrow.requests call hcall
  exact ⟨call', hcall', password, salt, hsame.trans hrequest, hrest⟩

theorem KnowsPassword.mono (hgrow : AccountsGrow s s')
    (h : KnowsPassword B s username password account) :
    KnowsPassword B s' username password account :=
  ⟨hgrow.accounts h.row, h.username, h.password⟩

theorem LoginEntitled.mono (hgrow : AccountsGrow s s')
    (h : LoginEntitled B s username password vaultId claims) :
    LoginEntitled B s' username password vaultId claims where
  vault := h.vault
  known := by
    obtain ⟨account, hknown, hid, hregistered⟩ := h.known
    exact ⟨account, hknown.mono hgrow, hid, hregistered.mono hgrow⟩
  granted := h.granted.mono hgrow.grants
  device := by
    obtain ⟨device, hdevice, hid, huser, hvault⟩ := h.device
    obtain ⟨device', hdevice', hid', huser', hvault'⟩ := hgrow.devices device hdevice
    exact ⟨device', hdevice', hid'.trans hid, huser'.trans huser, hvault'.trans hvault⟩

end

/-! ### The invariant -/

/-- What a call has shown where it stands. -/
def CallSound (B : Bcrypt) (s : AccountServer) (call : AccountCall) : Prop :=
  match call.request, call.phase with
  | .createUser username password, .requested =>
    validateUsername username = none ∧ validatePassword password = none
  | .createVault _ ownerUserId, .inserted vaultId => Grant.created vaultId ownerUserId ∈ s.grants
  | .addMember vaultId actorUserId targetUserId _, .allowed role =>
    Grant.allowed vaultId actorUserId targetUserId role ∈ s.grants ∧
      Granted s.grants ((vaultId, actorUserId), .owner)
  | .login _ username password _ _, .known account => KnowsPassword B s username password account
  | .login _ username password vaultId _, .admitted account role =>
    KnowsPassword B s username password account ∧ Granted s.grants ((vaultId, account.userId), role)
  | .login _ username password vaultId _, .enrolled claims =>
    LoginEntitled B s username password vaultId claims
  | .login _ username password vaultId _, .returned (.tokens claims _) =>
    LoginEntitled B s username password vaultId claims
  | _, _ => True

/-- Roles come from grants, accounts are registered, and the calls in progress are sound. -/
structure AccountsKept (B : Bcrypt) (s : AccountServer) : Prop extends HandedOn s where
  registered : ∀ account ∈ s.tables.accounts, Registered B s account
  calls : ∀ call ∈ s.calls, CallSound B s call

section

variable {B : Bcrypt} {P : Platform} {lower : String → String} {s s' : AccountServer}
  {call : AccountCall}

theorem CallSound.mono (hgrow : AccountsGrow s s') (h : CallSound B s call) :
    CallSound B s' call := by
  obtain ⟨request, phase⟩ := call
  unfold CallSound at h ⊢
  split at h
  · exact h
  · exact hgrow.grants h
  · exact ⟨hgrow.grants h.1, h.2.mono hgrow.grants⟩
  · exact h.mono hgrow
  · exact ⟨h.1.mono hgrow, h.2.mono hgrow.grants⟩
  · exact h.mono hgrow
  · exact h.mono hgrow
  · trivial

/-! ### The statements -/

/-- A statement that writes does so, or leaves the tables. -/
theorem written_cases (ends : StatementEnd) (tables : AccountTables)
    (result : Option AccountTables) (phase : AccountPhase) :
    written ends tables result phase = (tables, .threw .database) ∨
      ∃ tables', result = some tables' ∧
        (written ends tables result phase = (tables', phase) ∨
          written ends tables result phase = (tables', .threw .database)) := by
  cases result with
  | none =>
    left
    cases ends <;> rfl
  | some tables' =>
    cases ends with
    | done => exact Or.inr ⟨tables', rfl, Or.inl rfl⟩
    | failed => exact Or.inl rfl
    | lost => exact Or.inr ⟨tables', rfl, Or.inr rfl⟩

/-- A call that threw has shown nothing. -/
theorem callSound_threw (t : AccountServer) (request : AccountRequest) (failure : AccountFailure) :
    CallSound B t { request, phase := .threw failure } := by
  cases request <;> trivial

theorem newGrants_threw (request : AccountRequest) (before : AccountPhase)
    (failure : AccountFailure) : newGrants request before (.threw failure) = [] := by
  cases request <;> cases before <;> rfl

/-- Only the check of `addMember` lets a member be added. -/
theorem phase_of_allowed_mem {request : AccountRequest} {before after : AccountPhase}
    {vaultId actorUserId targetUserId : String} {role : Role}
    (h : Grant.allowed vaultId actorUserId targetUserId role ∈ newGrants request before after) :
    after = .allowed role := by
  unfold newGrants at h
  split at h
  · cases List.mem_singleton.mp h
  · obtain ⟨rfl, rfl, rfl, rfl⟩ := Grant.allowed.inj (List.mem_singleton.mp h)
    rfl
  · cases h

theorem newGrants_self (request : AccountRequest) (phase : AccountPhase) :
    newGrants request phase phase = [] := by
  cases request <;> cases phase <;> rfl

/-- The server after a statement. -/
def AccountServer.next (s : AccountServer) (i : ℕ) (call : AccountCall) (tables : AccountTables)
    (limiter : LoginRateLimiter) (phase : AccountPhase) (grants : List Grant) : AccountServer :=
  { tables, limiter, calls := s.calls.set i { call with phase }, grants := s.grants ++ grants }

/-- The requests of the calls stay. -/
theorem requests_set {calls : List AccountCall} {i : ℕ} (hcall : calls[i]? = some call)
    (phase : AccountPhase) : ∀ other ∈ calls, ∃ other' ∈ calls.set i { call with phase },
      other'.request = other.request := by
  intro other hother
  obtain ⟨j, hj⟩ := List.mem_iff_getElem?.mp hother
  by_cases hij : i = j
  · subst hij
    obtain rfl := Option.some.inj (hcall.symm.trans hj)
    have hi := (List.getElem?_eq_some_iff.mp hcall).1
    exact ⟨_, List.mem_set hi _, rfl⟩
  · refine ⟨other, List.mem_iff_getElem?.mpr ⟨j, ?_⟩, rfl⟩
    rw [List.getElem?_set_ne hij, hj]

section

variable {i : ℕ} {tables : AccountTables} {limiter : LoginRateLimiter} {phase : AccountPhase}
  {grants : List Grant}

/-- What is to be shown of a statement: where its new rows come from, and what its call has shown
after it. -/
theorem AccountsKept.next (h : AccountsKept B s)
    (hgrow : AccountsGrow s (s.next i call tables limiter phase grants))
    (hmembers : ∀ row ∈ tables.roles.rows, row ∈ s.tables.roles.rows ∨
      Granted (s.grants ++ grants) row)
    (hactors : ∀ vaultId actorUserId targetUserId role,
      Grant.allowed vaultId actorUserId targetUserId role ∈ grants →
        Granted (s.grants ++ grants) ((vaultId, actorUserId), .owner))
    (haccounts : ∀ account ∈ tables.accounts, account ∈ s.tables.accounts ∨
      Registered B (s.next i call tables limiter phase grants) account)
    (hsound : CallSound B (s.next i call tables limiter phase grants) { call with phase }) :
    AccountsKept B (s.next i call tables limiter phase grants) where
  members row hrow := (hmembers row hrow).elim
    (fun hold => (h.members row hold).mono (List.subset_append_left _ _)) id
  actors vaultId actorUserId targetUserId role hmem := (List.mem_append.mp hmem).elim
    (fun hold => (h.actors _ _ _ _ hold).mono (List.subset_append_left _ _))
    (hactors vaultId actorUserId targetUserId role)
  registered account haccount := (haccounts account haccount).elim
    (fun hold => (h.registered account hold).mono hgrow) id
  calls other hother := by
    rcases List.mem_or_eq_of_mem_set hother with hother | rfl
    · exact (h.calls other hother).mono hgrow
    · exact hsound

variable (hcall : s.calls[i]? = some call)
include hcall

theorem AccountsGrow.next (haccounts : s.tables.accounts ⊆ tables.accounts)
    (hdevices : s.tables.devices.rows ⊆ tables.devices.rows) :
    AccountsGrow s (s.next i call tables limiter phase grants) where
  accounts := haccounts
  grants := List.subset_append_left _ _
  requests := requests_set hcall phase
  devices device hdevice := ⟨device, hdevices hdevice, rfl, rfl, rfl⟩

/-- The statement only reads. -/
theorem AccountsKept.reads (h : AccountsKept B s)
    (hsound : ∀ t, AccountsGrow s t → CallSound B t { call with phase }) :
    AccountsKept B (s.next i call s.tables limiter phase []) := by
  have hgrow : AccountsGrow s (s.next i call s.tables limiter phase []) :=
    .next hcall (List.Subset.refl _) (List.Subset.refl _)
  exact h.next hgrow (fun _ => Or.inl) (fun _ _ _ _ hnone => nomatch hnone) (fun _ => Or.inl)
    (hsound _ hgrow)

/-- The statement writes, or nothing is written. -/
theorem AccountsKept.writes (h : AccountsKept B s) {result : Option AccountTables}
    (ends : StatementEnd) (hphase : ∀ role, phase ≠ .allowed role)
    (hwrites : ∀ tables, result = some tables →
      s.tables.accounts ⊆ tables.accounts ∧
      s.tables.devices.rows ⊆ tables.devices.rows ∧
      (∀ row ∈ tables.roles.rows, row ∈ s.tables.roles.rows ∨ Granted s.grants row) ∧
      (∀ account ∈ tables.accounts, account ∈ s.tables.accounts ∨ Registered B s account) ∧
      ∀ t, AccountsGrow s t → t.tables = tables →
        newGrants call.request call.phase phase ⊆ t.grants →
          CallSound B t { call with phase }) :
    AccountsKept B (s.next i call (written ends s.tables result phase).1 limiter
      (written ends s.tables result phase).2
      (newGrants call.request call.phase (written ends s.tables result phase).2)) := by
  rcases written_cases ends s.tables result phase with hnone | ⟨tables, hresult, hsome⟩
  · rw [hnone, newGrants_threw]
    exact h.reads hcall fun t _ => callSound_threw t _ _
  obtain ⟨haccounts, hdevices, hmembers, hregistered, hsound⟩ := hwrites tables hresult
  have hkept : ∀ (phase' : AccountPhase) (grants : List Grant),
      (∀ vaultId actor target role, Grant.allowed vaultId actor target role ∉ grants) →
      (∀ t, AccountsGrow s t → t.tables = tables → grants ⊆ t.grants →
        CallSound B t { call with phase := phase' }) →
      AccountsKept B (s.next i call tables limiter phase' grants) := by
    intro phase' grants hnone hshown
    have hgrow : AccountsGrow s (s.next i call tables limiter phase' grants) :=
      .next hcall haccounts hdevices
    refine h.next hgrow (fun row hrow => ?_) (fun _ _ _ _ hmem => absurd hmem (hnone _ _ _ _))
      (fun account haccount => ?_) ?_
    · exact (hmembers row hrow).imp_right (Granted.mono (List.subset_append_left _ _))
    · exact (hregistered account haccount).imp_right (Registered.mono hgrow)
    · exact hshown _ hgrow rfl (List.subset_append_right _ _)
  rcases hsome with hdone | hlost
  · rw [hdone]
    exact hkept phase _ (fun _ _ _ role hmem => hphase role (phase_of_allowed_mem hmem)) hsound
  · rw [hlost, newGrants_threw]
    exact hkept _ [] (fun _ _ _ _ hnone => nomatch hnone) fun t _ _ _ => callSound_threw t _ _

end

/-- The tables without new rows of members, users and devices. -/
structure SameMembers (tables tables' : AccountTables) : Prop where
  accounts : tables'.accounts = tables.accounts
  roles : tables'.roles = tables.roles
  devices : tables'.devices = tables.devices

theorem sameMembers_insertVault {tables tables' : AccountTables} {vaultId name : String}
    (h : tables.insertVault vaultId name = some tables') : SameMembers tables tables' := by
  unfold AccountTables.insertVault at h
  split at h
  · cases h
  · rw [← Option.some.inj h]
    exact ⟨rfl, rfl, rfl⟩

theorem sameMembers_saveRefreshToken {tables tables' : AccountTables}
    {record : RefreshTokenRecord} (h : tables.saveRefreshToken record = some tables') :
    SameMembers tables tables' := by
  unfold AccountTables.saveRefreshToken at h
  split at h
  · rw [← Option.some.inj h]
    exact ⟨rfl, rfl, rfl⟩
  · cases h

theorem eq_of_createUser {tables tables' : AccountTables} {account : Account}
    (h : tables.createUser account = some tables') :
    tables' = { tables with accounts := tables.accounts ++ [account] } := by
  unfold AccountTables.createUser at h
  split at h
  · cases h
  · exact (Option.some.inj h).symm

theorem eq_of_setMember {tables tables' : AccountTables} {vaultId userId : String} {role : Role}
    (h : tables.setMember vaultId userId role = some tables') :
    tables' = { tables with roles := tables.roles.set ((vaultId, userId), role) } := by
  unfold AccountTables.setMember at h
  split at h
  · exact (Option.some.inj h).symm
  · cases h

/-- A device that is inserted is new, and the others stay. -/
theorem of_createDevice {tables tables' : AccountTables} {deviceId userId vaultId : String}
    (h : tables.createDevice deviceId userId vaultId = some tables') :
    tables'.accounts = tables.accounts ∧ tables'.roles = tables.roles ∧
      tables.devices.rows ⊆ tables'.devices.rows ∧
      ∃ device ∈ tables'.devices.rows, device.deviceId = deviceId ∧ device.userId = userId ∧
        device.vaultId = vaultId := by
  unfold AccountTables.createDevice at h
  split at h
  · cases h
  next hnew =>
  rw [not_or] at hnew
  rw [← Option.some.inj h]
  refine ⟨rfl, rfl, fun device hdevice => ?_, _, Table.mem_set_iff.mpr (Or.inl rfl), rfl, rfl, rfl⟩
  refine Table.mem_set_iff.mpr (Or.inr ⟨hdevice, fun hsame => hnew.1 ?_⟩)
  exact List.mem_map.mpr ⟨device, hdevice, hsame⟩

/-! ### One statement -/

section

variable {i : ℕ} {limiter : LoginRateLimiter}

/-- The membership that is read is a row. -/
theorem mem_of_getMember {tables : AccountTables} {vaultId userId : String} {role : Role}
    (h : tables.auth.getMember vaultId userId = some role) :
    ((vaultId, userId), role) ∈ tables.roles.rows := by
  unfold AuthTables.getMember at h
  split at h
  · obtain ⟨row, hget, rfl⟩ := Option.map_eq_some_iff.mp h
    rw [← Table.key_of_get? hget]
    exact Table.mem_of_get? hget
  · cases h

theorem mem_of_requireRole {tables : AccountTables} {vaultId userId : String} {role : Role}
    (h : AuthService.requireRole tables vaultId userId .owner = .ok role) :
    ((vaultId, userId), Role.owner) ∈ tables.roles.rows := by
  unfold AuthService.requireRole at h
  cases hmember : tables.auth.getMember vaultId userId with
  | none =>
    rw [hmember] at h
    cases h
  | some read =>
    rw [hmember] at h
    dsimp only at h
    split at h
    · cases h
    next hrank =>
    have howner : read = .owner := by
      revert hrank
      cases read <;> decide
    exact howner ▸ mem_of_getMember hmember

/-- The actor is an owner where the check passes. -/
theorem mem_of_checkAddMember {tables : AccountTables} {vaultId actorUserId role : String}
    {granted : Role} (h : checkAddMember tables vaultId actorUserId role = .allowed granted) :
    ((vaultId, actorUserId), Role.owner) ∈ tables.roles.rows := by
  unfold checkAddMember at h
  cases hrequire : AuthService.requireRole tables vaultId actorUserId .owner with
  | error failure =>
    rw [hrequire] at h
    cases h
  | ok read => exact mem_of_requireRole hrequire

/-- The password is compared with the row of the user. -/
theorem callSound_checkPassword {t : AccountServer} (hgrow : AccountsGrow s t)
    (ip username password vaultId deviceName : String) :
    CallSound B t ⟨.login ip username password vaultId deviceName,
      checkPassword B s.tables username password⟩ := by
  unfold checkPassword
  dsimp only
  split
  · trivial
  next account hrow =>
  split
  · next hpassword =>
    have hname := List.find?_some hrow
    have hknown : KnowsPassword B s username password account :=
      ⟨List.mem_of_find?_eq_some hrow, of_decide_eq_true hname, hpassword.2⟩
    exact hknown.mono hgrow
  · trivial

/-- The membership is read for the user whose password it was. -/
theorem callSound_checkAdmission {t : AccountServer} (h : AccountsKept B s)
    (hgrow : AccountsGrow s t) {account : Account}
    {ip username password vaultId deviceName : String}
    (hknown : KnowsPassword B s username password account) :
    CallSound B t ⟨.login ip username password vaultId deviceName,
      checkAdmission s.tables vaultId account⟩ := by
  unfold checkAdmission
  split
  · trivial
  · next role hrole =>
    have hgranted := h.members _ (mem_of_getMember hrole)
    exact ⟨hknown.mono hgrow, hgranted.mono hgrow.grants⟩

/-- What a statement that reads has shown. -/
theorem callSound_readEnd {t : AccountServer} {request : AccountRequest} (ends : StatementEnd)
    {phase : AccountPhase} (h : CallSound B t { request, phase }) :
    CallSound B t { request, phase := readEnd ends phase } := by
  unfold readEnd
  split
  · exact h
  · exact callSound_threw _ _ _

/-- The server after the next statement of a call. -/
def AccountServer.stated (B : Bcrypt) (P : Platform) (s : AccountServer) (i : ℕ)
    (call : AccountCall) (limiter : LoginRateLimiter) (draws : AccountDraws)
    (ends : StatementEnd) : AccountServer :=
  s.next i call (accountStatement B P s.tables draws ends call).1 limiter
    (accountStatement B P s.tables draws ends call).2
    (newGrants call.request call.phase (accountStatement B P s.tables draws ends call).2)

/-- A call that has nothing to do stays as it is. -/
theorem AccountsKept.idle (h : AccountsKept B s) (hcall : s.calls[i]? = some call) :
    AccountsKept B (s.next i call s.tables limiter call.phase
      (newGrants call.request call.phase call.phase)) := by
  have hsound := h.calls call (List.mem_of_getElem? hcall)
  rw [newGrants_self]
  exact h.reads hcall fun t ht => hsound.mono ht

variable {phase : AccountPhase}

/-- A new user has a name and a password that are allowed. -/
theorem AccountsKept.createUser (h : AccountsKept B s) {username password : String}
    (hcall : s.calls[i]? = some ⟨.createUser username password, phase⟩) (draws : AccountDraws)
    (ends : StatementEnd) :
    AccountsKept B
      (s.stated B P i ⟨.createUser username password, phase⟩ limiter draws ends) := by
  have hsound := h.calls _ (List.mem_of_getElem? hcall)
  cases phase with
  | requested =>
    refine h.writes hcall ends nofun fun tables htables => ?_
    rw [eq_of_createUser htables]
    refine ⟨List.subset_append_left _ _, List.Subset.refl _, fun _ => Or.inl,
      fun account haccount => ?_, fun _ _ _ _ => trivial⟩
    refine (List.mem_append.mp haccount).imp_right fun hnew => ?_
    rw [List.mem_singleton.mp hnew]
    exact ⟨_, List.mem_of_getElem? hcall, password, draws.salt, rfl, hsound.1, hsound.2, rfl⟩
  | _ => exact h.idle hcall

/-- The membership of the owner follows the vault. -/
theorem AccountsKept.createVault (h : AccountsKept B s) {name ownerUserId : String}
    (hcall : s.calls[i]? = some ⟨.createVault name ownerUserId, phase⟩) (draws : AccountDraws)
    (ends : StatementEnd) :
    AccountsKept B (s.stated B P i ⟨.createVault name ownerUserId, phase⟩ limiter draws ends) := by
  have hsound := h.calls _ (List.mem_of_getElem? hcall)
  cases phase with
  | requested =>
    refine h.writes hcall ends nofun fun tables htables => ?_
    have hsame := sameMembers_insertVault htables
    rw [hsame.accounts, hsame.roles, hsame.devices]
    exact ⟨List.Subset.refl _, List.Subset.refl _, fun _ => Or.inl, fun _ => Or.inl,
      fun _ _ _ hgrants => hgrants (List.mem_singleton_self _)⟩
  | inserted vaultId =>
    refine h.writes hcall ends nofun fun tables htables => ?_
    rw [eq_of_setMember htables]
    refine ⟨List.Subset.refl _, List.Subset.refl _, fun row hrow => ?_, fun _ => Or.inl,
      fun _ _ _ _ => trivial⟩
    rcases Table.mem_set_iff.mp hrow with rfl | ⟨hold, -⟩
    · exact Or.inr (granted_of_created hsound)
    · exact Or.inl hold
  | _ => exact h.idle hcall

/-- What the check of a new membership allows, its actor may grant. -/
theorem AccountsKept.allowMember (h : AccountsKept B s)
    {vaultId actorUserId targetUserId role : String}
    (hcall : s.calls[i]? = some ⟨.addMember vaultId actorUserId targetUserId role, .requested⟩)
    (draws : AccountDraws) (ends : StatementEnd) :
    AccountsKept B (s.stated B P i ⟨.addMember vaultId actorUserId targetUserId role, .requested⟩
      limiter draws ends) := by
  have hgrow : ∀ phase grants, AccountsGrow s (s.next i _ s.tables limiter phase grants) :=
    fun _ _ => .next hcall (List.Subset.refl _) (List.Subset.refl _)
  have howner : ∀ granted, readEnd ends (checkAddMember s.tables vaultId actorUserId role) =
      .allowed granted → Granted s.grants ((vaultId, actorUserId), .owner) := by
    intro granted hallowed
    unfold readEnd at hallowed
    split at hallowed
    · exact h.members _ (mem_of_checkAddMember hallowed)
    · cases hallowed
  refine h.next (hgrow _ _) (fun _ => Or.inl) (fun vaultId' actor target granted hmem => ?_)
    (fun _ => Or.inl) ?_
  · have hallowed := phase_of_allowed_mem hmem
    obtain ⟨rfl, rfl⟩ : vaultId' = vaultId ∧ actor = actorUserId := by
      have hnew : Grant.allowed vaultId' actor target granted ∈
          newGrants (.addMember vaultId actorUserId targetUserId role) .requested
            (.allowed granted) := hallowed ▸ hmem
      cases List.mem_singleton.mp hnew
      exact ⟨rfl, rfl⟩
    exact (howner granted hallowed).mono (List.subset_append_left _ _)
  show CallSound B (s.next i _ s.tables limiter
      (readEnd ends (checkAddMember s.tables vaultId actorUserId role))
      (newGrants (.addMember vaultId actorUserId targetUserId role) .requested
        (readEnd ends (checkAddMember s.tables vaultId actorUserId role))))
    ⟨.addMember vaultId actorUserId targetUserId role,
      readEnd ends (checkAddMember s.tables vaultId actorUserId role)⟩
  cases hphase : readEnd ends (checkAddMember s.tables vaultId actorUserId role) with
  | allowed granted =>
    exact ⟨List.mem_append_right _ (List.mem_singleton_self _),
      (howner granted hphase).mono (List.subset_append_left _ _)⟩
  | _ => trivial

/-- The membership that is written is the one that was allowed. -/
theorem AccountsKept.addMember (h : AccountsKept B s)
    {vaultId actorUserId targetUserId role : String}
    (hcall : s.calls[i]? = some ⟨.addMember vaultId actorUserId targetUserId role, phase⟩)
    (draws : AccountDraws) (ends : StatementEnd) :
    AccountsKept B (s.stated B P i ⟨.addMember vaultId actorUserId targetUserId role, phase⟩
      limiter draws ends) := by
  have hsound := h.calls _ (List.mem_of_getElem? hcall)
  cases phase with
  | requested => exact h.allowMember hcall draws ends
  | allowed granted =>
    refine h.writes hcall ends nofun fun tables htables => ?_
    rw [eq_of_setMember htables]
    refine ⟨List.Subset.refl _, List.Subset.refl _, fun row hrow => ?_, fun _ => Or.inl,
      fun _ _ _ _ => trivial⟩
    rcases Table.mem_set_iff.mp hrow with rfl | ⟨hold, -⟩
    · exact Or.inr (hsound.2.allowed hsound.1)
    · exact Or.inl hold
  | _ => exact h.idle hcall

/-- A login has read the password, then the membership, before it writes the device. -/
theorem AccountsKept.login (h : AccountsKept B s)
    {ip username password vaultId deviceName : String}
    (hcall : s.calls[i]? = some ⟨.login ip username password vaultId deviceName, phase⟩)
    (draws : AccountDraws) (ends : StatementEnd) :
    AccountsKept B (s.stated B P i ⟨.login ip username password vaultId deviceName, phase⟩
      limiter draws ends) := by
  have hsound := h.calls _ (List.mem_of_getElem? hcall)
  cases phase with
  | requested =>
    exact h.reads hcall fun t ht =>
      callSound_readEnd ends (callSound_checkPassword ht ip username password vaultId deviceName)
  | known account =>
    exact h.reads hcall fun t ht => callSound_readEnd ends (callSound_checkAdmission h ht hsound)
  | admitted account role =>
    refine h.writes hcall ends nofun fun tables htables => ?_
    obtain ⟨haccounts, hroles, hdevices, hdevice⟩ := of_createDevice htables
    rw [haccounts, hroles]
    refine ⟨List.Subset.refl _, hdevices, fun _ => Or.inl, fun _ => Or.inl,
      fun t ht hsame _ => ?_⟩
    refine ⟨rfl, ⟨account, hsound.1.mono ht, rfl, ?_⟩, hsound.2.mono ht.grants, hsame ▸ hdevice⟩
    exact (h.registered account hsound.1.row).mono ht
  | enrolled claims =>
    refine h.writes hcall ends nofun fun tables htables => ?_
    have hsame := sameMembers_saveRefreshToken htables
    rw [hsame.accounts, hsame.roles, hsame.devices]
    exact ⟨List.Subset.refl _, List.Subset.refl _, fun _ => Or.inl, fun _ => Or.inl,
      fun t ht _ _ => hsound.mono ht⟩
  | _ => exact h.idle hcall

theorem AccountsKept.statement (h : AccountsKept B s) (hcall : s.calls[i]? = some call)
    (draws : AccountDraws) (ends : StatementEnd) :
    AccountsKept B (s.stated B P i call limiter draws ends) := by
  obtain ⟨request, phase⟩ := call
  cases request with
  | createUser username password => exact h.createUser hcall draws ends
  | createVault name ownerUserId => exact h.createVault hcall draws ends
  | addMember vaultId actorUserId targetUserId role => exact h.addMember hcall draws ends
  | login ip username password vaultId deviceName => exact h.login hcall draws ends

end

/-! ### The other events -/

/-- A call starts with a name and a password that are allowed, or has shown nothing yet. -/
theorem callSound_accountRequested (t : AccountServer) (limiter : LoginRateLimiter) (now : ℕ)
    (request : AccountRequest) :
    CallSound B t ⟨request, (accountRequested lower limiter now request).1⟩ := by
  cases request with
  | createUser username password =>
    unfold accountRequested
    dsimp only
    split
    · exact callSound_threw _ _ _
    · exact callSound_threw _ _ _
    · next hname hpassword => exact ⟨hname, hpassword⟩
  | createVault name ownerUserId =>
    unfold accountRequested
    dsimp only
    split <;> trivial
  | addMember vaultId actorUserId targetUserId role => trivial
  | login ip username password vaultId deviceName =>
    unfold accountRequested
    dsimp only
    split <;> trivial

theorem AccountsKept.called (h : AccountsKept B s) (request : AccountRequest) (now : ℕ) :
    AccountsKept B (accountStep B P lower s (.call request now)) := by
  have hgrow : AccountsGrow s (accountStep B P lower s (.call request now)) :=
    ⟨List.Subset.refl _, List.Subset.refl _,
      fun call hcall => ⟨call, List.mem_append_left _ hcall, rfl⟩,
      fun device hdevice => ⟨device, hdevice, rfl, rfl, rfl⟩⟩
  refine ⟨⟨h.members, h.actors⟩, fun account haccount => (h.registered account haccount).mono hgrow,
    fun call hcall => ?_⟩
  rcases List.mem_append.mp hcall with hold | hnew
  · exact (h.calls call hold).mono hgrow
  · rw [List.mem_singleton.mp hnew]
    exact callSound_accountRequested _ _ _ _

/-- The operator makes no members and no users. -/
theorem AccountsKept.operated (h : AccountsKept B s) {tables : AccountTables}
    (haccounts : tables.accounts = s.tables.accounts)
    (hroles : tables.roles.rows ⊆ s.tables.roles.rows)
    (hdevices : ∀ device ∈ s.tables.devices.rows, ∃ device' ∈ tables.devices.rows,
      device'.deviceId = device.deviceId ∧ device'.userId = device.userId ∧
        device'.vaultId = device.vaultId) :
    AccountsKept B { s with tables } := by
  have hgrow : AccountsGrow s { s with tables } :=
    ⟨haccounts ▸ List.Subset.refl _, List.Subset.refl _, fun call hcall => ⟨call, hcall, rfl⟩,
      hdevices⟩
  refine ⟨⟨fun row hrow => h.members row (hroles hrow), h.actors⟩, fun account haccount => ?_,
    fun call hcall => (h.calls call hcall).mono hgrow⟩
  exact (h.registered account (haccounts ▸ haccount)).mono hgrow

/-- Every event keeps what the calls have shown. -/
theorem AccountsKept.step (h : AccountsKept B s) (e : AccountEvent) :
    AccountsKept B (accountStep B P lower s e) := by
  cases e with
  | call request now => exact h.called request now
  | statement i draws ends =>
    cases hcall : s.calls[i]? with
    | none =>
      simp only [accountStep, hcall]
      exact h
    | some call =>
      simp only [accountStep, hcall]
      exact h.statement hcall draws ends
  | revokeDevice deviceId =>
    cases hdevice : s.tables.devices.get? deviceId with
    | none =>
      simp only [accountStep, hdevice]
      exact h
    | some revoked =>
      simp only [accountStep, hdevice]
      refine h.operated rfl (List.Subset.refl _) fun device hrow => ?_
      by_cases hsame : device.deviceId = revoked.deviceId
      · -- the row of the id is the one that is set
        have hid := Table.get?_key hrow
        rw [hsame, Table.key_of_get? hdevice, hdevice] at hid
        obtain rfl := Option.some.inj hid
        exact ⟨_, Table.mem_set_iff.mpr (Or.inl rfl), rfl, rfl, rfl⟩
      · exact ⟨device, Table.mem_set_iff.mpr (Or.inr ⟨hrow, hsame⟩), rfl, rfl, rfl⟩
  | removeMember vaultId userId =>
    exact h.operated rfl (fun row hrow => (Table.mem_erase_iff.mp hrow).1) fun device hdevice =>
      ⟨device, hdevice, rfl, rfl, rfl⟩

theorem accountsKept_empty (limiter : LoginRateLimiter) : AccountsKept B { limiter } :=
  ⟨⟨nofun, nofun⟩, nofun, nofun⟩

theorem accountsKept_run (limiter : LoginRateLimiter) (es : List AccountEvent) :
    Run.Throughout (accountStep B P lower) (AccountsKept B) { limiter } es :=
  Run.throughout_of_step (fun _ e h => h.step e) (accountsKept_empty limiter) es

end

/-! ### All runs -/

variable (B : Bcrypt) (P : Platform) (lower : String → String)

/-- **Nobody is a member of a vault but by a chain of owners from its creation**, and neither is
anybody who made a member, whatever statements of other calls come between the check of a call and
its `INSERT`, and whatever the operator takes away. -/
theorem granted_run (limiter : LoginRateLimiter) (es : List AccountEvent) :
    Run.Throughout (accountStep B P lower) HandedOn { limiter } es :=
  (accountsKept_run limiter es).mono fun _ h => h.toHandedOn

/-- **Who is given tokens is entitled to them**: the name is that of a registered user and the
password compares with the stored hash, the user was made a member of the vault, with the role in
the claims, and the device is one of theirs for that vault. -/
theorem entitled_run (limiter : LoginRateLimiter) (es : List AccountEvent) :
    Run.Throughout (accountStep B P lower) (EntitlesLogins B) { limiter } es := by
  refine (accountsKept_run limiter es).mono fun s h => ?_
  intro call hcall ip username password vaultId deviceName claims token hrequest hphase
  have hsound := h.calls call hcall
  obtain ⟨request, phase⟩ := call
  obtain rfl : request = _ := hrequest
  obtain rfl : phase = _ := hphase
  exact hsound

end ObsidianSync
