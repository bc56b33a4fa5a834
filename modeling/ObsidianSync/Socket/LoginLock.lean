import ObsidianSync.Socket.RateLimit

/-!
# Login locks

The limiter of logins counts the failures of a key in a window, and locks the key when
there are too many.  The lock has a length of its own, so it may outlast the window it was
set in.  A failure that comes after the window starts a new record, locked or not: this is
how an attempt that was under way can lift a lock.

## Main definitions

* `LoginRateLimiter.check`, `.recordFailure`, `.recordSuccess` — the calls of a login.
* `LockPersists` — a lock that was reported is in force until it ends.
* `FailsInWindow` — a failure that finds its key locked comes before the window is over.

## Main results

* `LoginRateLimiter.LockedUntil.after` — the calls that keep a lock.
* `lockPersists_of_failsInWindow` — the runs in which locks persist.
-/

namespace ObsidianSync

/-- The options of the limiter. -/
structure LoginRateLimiterOptions where
  maxFailures : ℤ
  windowMs : ℤ
  lockoutMs : ℤ

/-- What the limiter keeps of an address and a name. -/
structure LoginState where
  windowStartedAt : ℕ
  failures : ℕ
  lockedUntil : ℕ
  deriving DecidableEq, Repr

/-- The limiter of failed logins, by address and name. -/
structure LoginRateLimiter where
  records : Table (Prod.fst : String × LoginState → String) := Table.empty
  maxFailures : ℕ
  windowMs : ℕ
  lockoutMs : ℕ
  one_le_maxFailures : 1 ≤ maxFailures
  one_le_windowMs : 1 ≤ windowMs
  one_le_lockoutMs : 1 ≤ lockoutMs

/-- The key of an address and a user name. -/
def loginKey (lower : String → String) (ip username : String) : String :=
  let ip := String.ofList (trimWhitespace ip.toList)
  (if ip = "" then "unknown" else ip) ++ ":"
    ++ lower (String.ofList (trimWhitespace username.toList))

namespace LoginRateLimiter

/-- `new LoginRateLimiter(options)`. -/
def new (options : LoginRateLimiterOptions) : LoginRateLimiter where
  maxFailures := atLeastOne options.maxFailures
  windowMs := atLeastOne options.windowMs
  lockoutMs := atLeastOne options.lockoutMs
  one_le_maxFailures := one_le_atLeastOne _
  one_le_windowMs := one_le_atLeastOne _
  one_le_lockoutMs := one_le_atLeastOne _

/-- The record of a key. -/
def record (limiter : LoginRateLimiter) (key : String) : Option LoginState :=
  (limiter.records.get? key).map Prod.snd

section

-- `toLocaleLowerCase` in the locale of the process
variable (lower : String → String)

/-- Whether a login may be tried; a record that has run out is dropped. -/
def check (limiter : LoginRateLimiter) (ip username : String) (now : ℕ) :
    RateLimitResult × LoginRateLimiter :=
  let key := loginKey lower ip username
  match limiter.record key with
  | none => ({ allowed := true, remaining := limiter.maxFailures, retryAfterMs := 0 }, limiter)
  | some record =>
    if record.lockedUntil > now then
      ({ allowed := false, remaining := 0, retryAfterMs := record.lockedUntil - now }, limiter)
    else if now - record.windowStartedAt ≥ limiter.windowMs then
      ({ allowed := true, remaining := limiter.maxFailures, retryAfterMs := 0 },
        { limiter with records := limiter.records.erase key })
    else
      ({ allowed := true, remaining := limiter.maxFailures - record.failures, retryAfterMs := 0 },
        limiter)

/-- A login that may not be tried is refused. -/
def assertAllowed (limiter : LoginRateLimiter) (ip username : String) (now : ℕ) :
    Except Failure Unit × LoginRateLimiter :=
  let (result, limiter) := limiter.check lower ip username now
  (if !result.allowed then rateLimited "Too many login attempts" result.retryAfterMs else .ok (),
    limiter)

/-- The record that a failure is added to. -/
def current (limiter : LoginRateLimiter) (key : String) (now : ℕ) : LoginState :=
  match limiter.record key with
  | none => { windowStartedAt := now, failures := 0, lockedUntil := 0 }
  | some record =>
    -- whether the key is locked is not asked here
    if now - record.windowStartedAt ≥ limiter.windowMs then
      { windowStartedAt := now, failures := 0, lockedUntil := 0 }
    else record

/-- The record with one failure more. -/
def failed (limiter : LoginRateLimiter) (key : String) (now : ℕ) : LoginState :=
  let record := limiter.current key now
  let failures := record.failures + 1
  { record with
    failures
    lockedUntil :=
      if failures ≥ limiter.maxFailures then now + limiter.lockoutMs else record.lockedUntil }

/-- A login failed. -/
def recordFailure (limiter : LoginRateLimiter) (ip username : String) (now : ℕ) :
    LoginRateLimiter :=
  let key := loginKey lower ip username
  { limiter with records := limiter.records.set (key, limiter.failed key now) }

/-- A login succeeded. -/
def recordSuccess (limiter : LoginRateLimiter) (ip username : String) : LoginRateLimiter :=
  { limiter with records := limiter.records.erase (loginKey lower ip username) }

end

end LoginRateLimiter

/-- The calls on the limiter. -/
inductive LoginAction
  | check
  | recordFailure
  | recordSuccess
  deriving DecidableEq, Repr

/-- A call of the limiter; failures and successes may be those of attempts that were under way. -/
structure LoginCall where
  action : LoginAction
  ip : String
  username : String
  time : ℕ
  deriving DecidableEq, Repr

namespace LoginRateLimiter

/-- The limiter after a call. -/
def after (lower : String → String) (limiter : LoginRateLimiter) (call : LoginCall) :
    LoginRateLimiter :=
  match call.action with
  | .check => (limiter.check lower call.ip call.username call.time).2
  | .recordFailure => limiter.recordFailure lower call.ip call.username call.time
  | .recordSuccess => limiter.recordSuccess lower call.ip call.username

end LoginRateLimiter

/-- The record a call is about. -/
def LoginCall.key (lower : String → String) (call : LoginCall) : String :=
  loginKey lower call.ip call.username

/-- What a check at the time of the call is answered. -/
def LoginCall.answer (lower : String → String) (limiter : LoginRateLimiter) (call : LoginCall) :
    RateLimitResult :=
  (limiter.check lower call.ip call.username call.time).1

/-- **Locks persist**: after a check that is denied until some time, all checks of the key before
that time are denied, unless a success of the key came in between. -/
def LockPersists (lower : String → String) (limiter : LoginRateLimiter) (calls : List LoginCall) :
    Prop :=
  ∀ past denied between checked later,
    calls = past ++ denied :: (between ++ checked :: later) →
    denied.action = .check → checked.action = .check →
    checked.key lower = denied.key lower →
    (∀ call ∈ between, call.action = .recordSuccess → call.key lower ≠ denied.key lower) →
    let before := Run.final (LoginRateLimiter.after lower) limiter past
    (denied.answer lower before).allowed = false →
    checked.time < denied.time + (denied.answer lower before).retryAfterMs →
    (checked.answer lower
      (Run.final (LoginRateLimiter.after lower) before (denied :: between))).allowed = false

/-- A failure that finds its key locked comes before the window of the key is over; where one
failure is enough for a lock it may come later. -/
def FailsInWindow (lower : String → String) (limiter : LoginRateLimiter) (call : LoginCall) :
    Prop :=
  call.action = .recordFailure → ∀ record ∈ limiter.record (call.key lower),
    call.time < record.lockedUntil →
      call.time < record.windowStartedAt + limiter.windowMs ∨ limiter.maxFailures = 1

instance (lower : String → String) (limiter : LoginRateLimiter) (call : LoginCall) :
    Decidable (FailsInWindow lower limiter call) :=
  inferInstanceAs (Decidable (_ → ∀ _ ∈ _, _ → _))

namespace LoginRateLimiter

section

variable {lower : String → String} {limiter : LoginRateLimiter} {call : LoginCall} {key : String}

theorem record_new (options : LoginRateLimiterOptions) (key : String) :
    (new options).record key = none := rfl

/-! ### Locks -/

/-- The key is locked until then, at least. -/
def LockedUntil (limiter : LoginRateLimiter) (key : String) (until_ : ℕ) : Prop :=
  ∃ record ∈ limiter.record key, until_ ≤ record.lockedUntil

/-- No lock ends later than one that is set now. -/
def LocksBounded (limiter : LoginRateLimiter) (now : ℕ) : Prop :=
  ∀ key, ∀ record ∈ limiter.record key, record.lockedUntil ≤ now + limiter.lockoutMs

@[simp] theorem lockoutMs_after : (limiter.after lower call).lockoutMs = limiter.lockoutMs := by
  unfold after check
  cases call.action with
  | check =>
    dsimp only
    split
    · rfl
    · split
      · rfl
      · split <;> rfl
  | recordFailure | recordSuccess => rfl

/-- A check of a locked key changes nothing. -/
theorem check_of_locked {record : LoginState} {ip username : String} {now : ℕ}
    (hrecord : limiter.record (loginKey lower ip username) = some record)
    (hlocked : now < record.lockedUntil) :
    limiter.check lower ip username now
      = ({ allowed := false, remaining := 0, retryAfterMs := record.lockedUntil - now },
        limiter) := by
  unfold check
  dsimp only
  rw [hrecord]
  dsimp only
  rw [if_pos hlocked]

/-- A denied check found its key locked. -/
theorem locked_of_denied {ip username : String} {now : ℕ}
    (hdenied : (limiter.check lower ip username now).1.allowed = false) :
    ∃ record, limiter.record (loginKey lower ip username) = some record ∧
      now < record.lockedUntil := by
  unfold check at hdenied
  dsimp only at hdenied
  cases hrecord : limiter.record (loginKey lower ip username) with
  | none =>
    rw [hrecord] at hdenied
    cases hdenied
  | some record =>
    rw [hrecord] at hdenied
    dsimp only at hdenied
    by_cases hlocked : now < record.lockedUntil
    · exact ⟨record, rfl, hlocked⟩
    · rw [if_neg hlocked] at hdenied
      split at hdenied <;> cases hdenied

theorem record_set (limiter : LoginRateLimiter) (key : String) (state : LoginState)
    (other : String) :
    ({ limiter with records := limiter.records.set (key, state) } : LoginRateLimiter).record other
      = if key = other then some state else limiter.record other := by
  unfold record
  rw [Table.get?_set]
  split <;> rfl

theorem record_erase (limiter : LoginRateLimiter) (key other : String) :
    ({ limiter with records := limiter.records.erase key } : LoginRateLimiter).record other
      = if other = key then none else limiter.record other := by
  unfold record
  rw [Table.get?_erase]
  split <;> rfl

/-- **What a call leaves of the records**: a check or a success leaves a record as it is or takes
it away, a failure adds to that of its key. -/
theorem record_after (limiter : LoginRateLimiter) (call : LoginCall) (key : String) :
    (limiter.after lower call).record key = limiter.record key ∨
    (limiter.after lower call).record key = none ∧ call.key lower = key ∧
      call.action ≠ .recordFailure ∨
    (limiter.after lower call).record key = some (limiter.failed key call.time) ∧
      call.key lower = key ∧ call.action = .recordFailure := by
  unfold after check recordFailure recordSuccess LoginCall.key
  cases haction : call.action with
  | check =>
    dsimp only
    split
    · exact Or.inl rfl
    · split
      · exact Or.inl rfl
      · split
        · rw [record_erase]
          split
          · next hkey => exact Or.inr (Or.inl ⟨rfl, hkey.symm, by simp⟩)
          · exact Or.inl rfl
        · exact Or.inl rfl
  | recordFailure =>
    dsimp only
    rw [record_set]
    split
    · next hkey => exact Or.inr (Or.inr ⟨by rw [hkey], hkey, rfl⟩)
    · exact Or.inl rfl
  | recordSuccess =>
    dsimp only
    rw [record_erase]
    split
    · next hkey => exact Or.inr (Or.inl ⟨rfl, hkey.symm, by simp⟩)
    · exact Or.inl rfl

/-- A failure keeps the lock of the record it is added to, or sets a new one. -/
theorem lockedUntil_failed (limiter : LoginRateLimiter) (key : String) (now : ℕ) :
    (limiter.failed key now).lockedUntil = now + limiter.lockoutMs ∨
      (limiter.failed key now).lockedUntil = (limiter.current key now).lockedUntil := by
  unfold failed
  dsimp only
  split
  · exact Or.inl rfl
  · exact Or.inr rfl

theorem current_cases (limiter : LoginRateLimiter) (key : String) (now : ℕ) :
    limiter.record key = some (limiter.current key now) ∨
      (limiter.current key now).lockedUntil = 0 := by
  unfold current
  cases hrecord : limiter.record key with
  | none => exact Or.inr rfl
  | some record =>
    dsimp only
    split
    · exact Or.inr rfl
    · exact Or.inl rfl

theorem LocksBounded.mono {now later : ℕ} (h : LocksBounded limiter now) (hle : now ≤ later) :
    LocksBounded limiter later :=
  fun key record hrecord => (h key record hrecord).trans (Nat.add_le_add_right hle _)

/-- Locks stay bounded. -/
theorem LocksBounded.after (h : LocksBounded limiter call.time) :
    LocksBounded (limiter.after lower call) call.time := by
  intro key record hrecord
  rw [lockoutMs_after]
  rw [Option.mem_def] at hrecord
  rcases record_after limiter call key with hsame | ⟨hnone, -⟩ | ⟨hfailed, -⟩
  · exact h key record (hsame ▸ hrecord)
  · rw [hnone] at hrecord
    cases hrecord
  · obtain rfl : limiter.failed key call.time = record :=
      Option.some.inj (hfailed.symm.trans hrecord)
    rcases lockedUntil_failed limiter key call.time with hnew | hold
    · exact hnew.le
    · rw [hold]
      rcases current_cases limiter key call.time with hcurrent | hzero
      · exact h key _ hcurrent
      · rw [hzero]
        exact Nat.zero_le _

/-- **A lock is kept** by a call before its end that is no success of the key, if a failure comes
within the window. -/
theorem LockedUntil.after {until_ : ℕ} (h : LockedUntil limiter key until_)
    (hbounded : LocksBounded limiter call.time) (htime : call.time < until_)
    (hsuccess : call.action = .recordSuccess → call.key lower ≠ key)
    (hwindow : FailsInWindow lower limiter call) :
    LockedUntil (limiter.after lower call) key until_ := by
  obtain ⟨record, hrecord, huntil⟩ := h
  rw [Option.mem_def] at hrecord
  rcases record_after limiter call key with
    hsame | ⟨hnone, hkey, haction⟩ | ⟨hfailed, hkey, haction⟩
  · exact ⟨record, by rw [hsame, Option.mem_def, hrecord], huntil⟩
  · -- a check takes away no record that is locked
    exfalso
    cases hcall : call.action with
    | check =>
      unfold LoginRateLimiter.after at hnone
      rw [hcall] at hnone
      dsimp only at hnone
      rw [← hkey] at hrecord hnone
      rw [check_of_locked hrecord (by omega), hrecord] at hnone
      cases hnone
    | recordFailure => exact haction hcall
    | recordSuccess => exact hsuccess hcall hkey
  · refine ⟨_, hfailed, ?_⟩
    have hlocked : call.time < record.lockedUntil := by omega
    have hbound := hbounded key record hrecord
    rcases hwindow haction record (by rw [hkey, Option.mem_def, hrecord]) hlocked with hin | hone
    · have hcurrent : limiter.current key call.time = record := by
        have hpos := limiter.one_le_windowMs
        unfold current
        rw [hrecord]
        dsimp only
        rw [if_neg (by omega)]
      rcases lockedUntil_failed limiter key call.time with hnew | hold
      · omega
      · rw [hold, hcurrent]
        exact huntil
    · have hnew : (limiter.failed key call.time).lockedUntil = call.time + limiter.lockoutMs := by
        unfold failed
        dsimp only
        rw [if_pos (by omega)]
      omega

/-- Over calls before the end of the lock, it is kept. -/
theorem LockedUntil.final {until_ : ℕ} {calls : List LoginCall}
    (h : LockedUntil limiter key until_) {now : ℕ} (hbounded : LocksBounded limiter now)
    (horder : calls.Pairwise fun call later => call.time ≤ later.time)
    (hnow : ∀ call ∈ calls, now ≤ call.time) (htime : ∀ call ∈ calls, call.time < until_)
    (hsuccess : ∀ call ∈ calls, call.action = .recordSuccess → call.key lower ≠ key)
    (hwindow : Run.EachStep (LoginRateLimiter.after lower) (FailsInWindow lower) limiter calls) :
    LockedUntil (Run.final (LoginRateLimiter.after lower) limiter calls) key until_ := by
  induction calls generalizing limiter now with
  | nil => exact h
  | cons call calls ih =>
    obtain ⟨hfirst, hrest⟩ := List.pairwise_cons.mp horder
    have hbounded' := hbounded.mono (hnow call List.mem_cons_self)
    refine ih (h.after hbounded' (htime call List.mem_cons_self) (hsuccess call List.mem_cons_self)
      hwindow.1) hbounded'.after hrest hfirst ?_ ?_ hwindow.2
    · exact fun later hlater => htime later (List.mem_cons_of_mem _ hlater)
    · exact fun later hlater => hsuccess later (List.mem_cons_of_mem _ hlater)

/-- Locks are bounded in every state. -/
theorem LocksBounded.final {calls : List LoginCall} (now : ℕ) (h : LocksBounded limiter now)
    (horder : calls.Pairwise fun call later => call.time ≤ later.time)
    (hnow : ∀ call ∈ calls, now ≤ call.time) {later : ℕ} (hlater : now ≤ later)
    (hbefore : ∀ call ∈ calls, call.time ≤ later) :
    LocksBounded (Run.final (LoginRateLimiter.after lower) limiter calls) later := by
  induction calls generalizing limiter now with
  | nil => exact h.mono hlater
  | cons call calls ih =>
    obtain ⟨hfirst, hrest⟩ := List.pairwise_cons.mp horder
    exact ih _ (h.mono (hnow call List.mem_cons_self)).after hrest hfirst
      (hbefore call List.mem_cons_self)
      fun other hother => hbefore other (List.mem_cons_of_mem _ hother)

end

end LoginRateLimiter

/-- **Locks persist** in the runs of a new limiter in which every failure that finds its key
locked comes before the window of the key is over. -/
theorem lockPersists_of_failsInWindow (lower : String → String) (options : LoginRateLimiterOptions)
    {calls : List LoginCall} (horder : calls.Pairwise fun call later => call.time ≤ later.time)
    (hwindow : Run.EachStep (LoginRateLimiter.after lower) (FailsInWindow lower)
      (LoginRateLimiter.new options) calls) :
    LockPersists lower (LoginRateLimiter.new options) calls := by
  intro past denied between checked later hcalls hdenied hchecked hkey hsuccess before hanswer htime
  rw [hcalls] at horder hwindow
  obtain ⟨hpast, hrest, hbefore⟩ := List.pairwise_append.mp horder
  obtain ⟨hfirst, hrest⟩ := List.pairwise_cons.mp hrest
  obtain ⟨hbetween, -, hlast⟩ := List.pairwise_append.mp hrest
  have hsteps := (Run.eachStep_append.mp (Run.eachStep_append.mp hwindow).2.2).1
  -- the lock that the check reported
  obtain ⟨record, hrecord, hlocked⟩ := LoginRateLimiter.locked_of_denied hanswer
  have hreport := LoginRateLimiter.check_of_locked hrecord hlocked
  have huntil : checked.time < record.lockedUntil := by
    rw [LoginCall.answer, hreport] at htime
    dsimp only at htime
    omega
  have hsame : before.after lower denied = before := by
    rw [LoginRateLimiter.after, hdenied, hreport]
  have hbounded : before.LocksBounded denied.time :=
    LoginRateLimiter.LocksBounded.final 0
      (fun key record h => by rw [LoginRateLimiter.record_new] at h; cases h) hpast
      (fun _ _ => Nat.zero_le _) (Nat.zero_le _)
      fun call hcall => hbefore call hcall denied List.mem_cons_self
  -- it is in force when the key is checked again
  rw [hsame] at hsteps
  obtain ⟨final, hfinal, hlater⟩ := LoginRateLimiter.LockedUntil.final
    ⟨record, hrecord, le_rfl⟩ hbounded hbetween
    (fun call hcall => hfirst call (List.mem_append_left _ hcall))
    (fun call hcall => by
      have := hlast call hcall checked List.mem_cons_self
      omega) hsuccess hsteps
  rw [Run.final_cons, hsame, LoginCall.answer,
    LoginRateLimiter.check_of_locked (by rw [← LoginCall.key, hkey]; exact hfinal) (by omega)]

/-- Two failures that lock a key, a check, a third failure and a second check. -/
def sampleLogins (late : ℕ) : List LoginCall :=
  [⟨.recordFailure, "10.0.0.1", "alice", 0⟩, ⟨.recordFailure, "10.0.0.1", "alice", 900⟩,
    ⟨.check, "10.0.0.1", "alice", 950⟩, ⟨.recordFailure, "10.0.0.1", "alice", late⟩,
    ⟨.check, "10.0.0.1", "alice", 1500⟩]

theorem lockPersists_sampleLogins :
    LockPersists samplePlatform.toLowerCase (.new ⟨2, 1000, 5000⟩) (sampleLogins 990) :=
  lockPersists_of_failsInWindow _ _ (by decide) (by decide +kernel)

/-- The failure of an attempt that was under way lifts the lock, where the window ends first. -/
theorem not_lockPersists_sampleLogins :
    (sampleLogins 1100).Pairwise (fun call later => call.time ≤ later.time) ∧
      ¬ LockPersists samplePlatform.toLowerCase (.new ⟨2, 1000, 5000⟩) (sampleLogins 1100) := by
  refine ⟨by decide, fun h => ?_⟩
  have hchecked := h ((sampleLogins 1100).take 2) ⟨.check, "10.0.0.1", "alice", 950⟩
    [⟨.recordFailure, "10.0.0.1", "alice", 1100⟩] ⟨.check, "10.0.0.1", "alice", 1500⟩ [] rfl rfl
    rfl rfl (by decide +kernel) (by decide +kernel) (by decide +kernel)
  revert hchecked
  decide +kernel

end ObsidianSync
