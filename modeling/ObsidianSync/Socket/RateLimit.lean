import Mathlib.Data.List.Induction
import ObsidianSync.Lib.Run
import ObsidianSync.Server.OpProcessor

/-!
# Rate limits

The limiter of connections and messages counts the calls of a key from the first call on,
and starts again with the first call that comes a window later.

## Main definitions

* `RateLimitResult`, `rateLimited` — what a limiter answers, and the error of a refusal.
* `FixedWindowRateLimiter.consume` — a call.
* `FixedWindowRateLimiter.allowedCalls` — the calls that a run of them allows.
* `FixedWindowBound` — the allowed calls of a key in less than a window, what a refusal says,
  and that keys do not influence each other.

## Main results

* `FixedWindowRateLimiter.AgreeOn.final` — the calls of other keys may be left out.
* `fixedWindowBound` — a new limiter keeps the bound.
-/

namespace ObsidianSync

/-- What a limiter answers. -/
structure RateLimitResult where
  allowed : Bool
  remaining : ℕ
  retryAfterMs : ℕ
  deriving DecidableEq, Repr

/-- `Math.max(1, n)`. -/
def atLeastOne (n : ℤ) : ℕ := (max 1 n).toNat

theorem one_le_atLeastOne (n : ℤ) : 1 ≤ atLeastOne n := by
  unfold atLeastOne
  omega

/-- The refusal of a limiter. -/
def rateLimited {α : Type} (message : String) (retryAfterMs : ℕ) : Except Failure α :=
  fail .RATE_LIMITED message (some (.retryAfterMs retryAfterMs))

/-! ### Fixed windows -/

/-- The options of the limiter. -/
structure FixedWindowRateLimiterOptions where
  max : ℤ
  windowMs : ℤ

/-- The window of a key. -/
structure WindowState where
  startedAt : ℕ
  count : ℕ
  deriving DecidableEq, Repr

/-- `state.count += 1`. -/
def WindowState.counted (state : WindowState) : WindowState :=
  { state with count := state.count + 1 }

/-- The limiter, with a window for each key. -/
structure FixedWindowRateLimiter where
  buckets : Table (Prod.fst : String × WindowState → String) := Table.empty
  max : ℕ
  windowMs : ℕ
  one_le_max : 1 ≤ max
  one_le_windowMs : 1 ≤ windowMs

namespace FixedWindowRateLimiter

/-- `new FixedWindowRateLimiter(options)`. -/
def new (options : FixedWindowRateLimiterOptions) : FixedWindowRateLimiter where
  max := atLeastOne options.max
  windowMs := atLeastOne options.windowMs
  one_le_max := one_le_atLeastOne _
  one_le_windowMs := one_le_atLeastOne _

/-- The bucket of a key. -/
def bucket (limiter : FixedWindowRateLimiter) (key : String) : Option WindowState :=
  (limiter.buckets.get? key).map Prod.snd

/-- The window a call falls in, before it is counted. -/
def windowAt (limiter : FixedWindowRateLimiter) (key : String) (now : ℕ) : WindowState :=
  match limiter.bucket key with
  | none => { startedAt := now, count := 0 }
  | some current =>
    if now - current.startedAt ≥ limiter.windowMs then { startedAt := now, count := 0 }
    else current

/-- One more call in the window of a key. -/
def consume (limiter : FixedWindowRateLimiter) (key : String) (now : ℕ) :
    RateLimitResult × FixedWindowRateLimiter :=
  let state := (limiter.windowAt key now).counted
  -- the clock may have gone back behind the start of the window
  let retryAfterMs := ((limiter.windowMs : ℤ) - ((now : ℤ) - state.startedAt)).toNat
  ({ allowed := state.count ≤ limiter.max, remaining := limiter.max - state.count, retryAfterMs },
    { limiter with buckets := limiter.buckets.set (key, state) })

/-- A call beyond the limit is refused. -/
def assertAllowed (limiter : FixedWindowRateLimiter) (key message : String) (now : ℕ) :
    Except Failure Unit × FixedWindowRateLimiter :=
  let (result, limiter) := limiter.consume key now
  (if !result.allowed then rateLimited message result.retryAfterMs else .ok (), limiter)

/-- A call is refused exactly if `consume` does not allow it, and counted in either case. -/
theorem assertAllowed_cases (limiter : FixedWindowRateLimiter) (key message : String) (now : ℕ) :
    ((limiter.assertAllowed key message now).1.isOk = (limiter.consume key now).1.allowed) ∧
      (limiter.assertAllowed key message now).2 = (limiter.consume key now).2 := by
  unfold assertAllowed
  dsimp only
  cases (limiter.consume key now).1.allowed with
  | true => exact ⟨rfl, rfl⟩
  | false => exact ⟨rfl, rfl⟩

end FixedWindowRateLimiter

/-- A call of `consume`. -/
structure ConsumeCall where
  key : String
  time : ℕ
  deriving DecidableEq, Repr

namespace FixedWindowRateLimiter

/-- The limiter after a call. -/
def after (limiter : FixedWindowRateLimiter) (call : ConsumeCall) : FixedWindowRateLimiter :=
  (limiter.consume call.key call.time).2

/-- What a call is answered. -/
def answer (limiter : FixedWindowRateLimiter) (call : ConsumeCall) : RateLimitResult :=
  (limiter.consume call.key call.time).1

/-- The calls that are allowed. -/
def allowedCalls (limiter : FixedWindowRateLimiter) : List ConsumeCall → List ConsumeCall
  | [] => []
  | call :: calls =>
    if (limiter.answer call).allowed then call :: (limiter.after call).allowedCalls calls
    else (limiter.after call).allowedCalls calls

/-- The calls of a key in an interval. -/
def InInterval (key : String) (a b : ℕ) (call : ConsumeCall) : Prop :=
  call.key = key ∧ a ≤ call.time ∧ call.time ≤ b

instance (key : String) (a b : ℕ) : DecidablePred (InInterval key a b) :=
  fun _ => inferInstanceAs (Decidable (_ ∧ _ ∧ _))

/-- The number of calls of a key that are allowed in an interval. -/
def allowedWithin (limiter : FixedWindowRateLimiter) (calls : List ConsumeCall) (key : String)
    (a b : ℕ) : ℕ :=
  (limiter.allowedCalls calls).countP fun call => InInterval key a b call

/-- The clock of the calls does not go back. -/
def InOrder (calls : List ConsumeCall) : Prop :=
  calls.Pairwise fun call later => call.time ≤ later.time

instance (calls : List ConsumeCall) : Decidable (InOrder calls) :=
  inferInstanceAs (Decidable (calls.Pairwise _))

section

variable {limiter : FixedWindowRateLimiter} {call : ConsumeCall} {calls : List ConsumeCall}
  {key : String}

@[simp] theorem max_after : (limiter.after call).max = limiter.max := rfl

@[simp] theorem windowMs_after : (limiter.after call).windowMs = limiter.windowMs := rfl

/-- What a call leaves in the buckets. -/
theorem bucket_after (limiter : FixedWindowRateLimiter) (call : ConsumeCall) (key : String) :
    (limiter.after call).bucket key
      = if call.key = key then
          some (limiter.windowAt call.key call.time).counted
        else limiter.bucket key := by
  simp only [bucket, after, consume, Table.get?_set]
  split
  · rfl
  · rfl

theorem bucket_after_of_ne (h : call.key ≠ key) :
    (limiter.after call).bucket key = limiter.bucket key := by
  rw [bucket_after, if_neg h]

theorem allowed_answer (limiter : FixedWindowRateLimiter) (call : ConsumeCall) :
    (limiter.answer call).allowed = true ↔
    (limiter.windowAt call.key call.time).count + 1 ≤ limiter.max :=
  decide_eq_true_iff

/-- The window of a call: the one of its bucket, or a new one. -/
theorem windowAt_cases (limiter : FixedWindowRateLimiter) (key : String) (now : ℕ) :
    (∃ state, limiter.bucket key = some state ∧ now < state.startedAt + limiter.windowMs ∧
      limiter.windowAt key now = state) ∨
    ((∀ state, limiter.bucket key = some state → state.startedAt + limiter.windowMs ≤ now) ∧
      limiter.windowAt key now = { startedAt := now, count := 0 }) := by
  have hpos := limiter.one_le_windowMs
  unfold windowAt
  cases hb : limiter.bucket key with
  | none => exact Or.inr ⟨fun _ h => (nomatch h), rfl⟩
  | some state =>
    dsimp only
    split
    · next hover =>
      refine Or.inr ⟨fun other h => ?_, rfl⟩
      obtain rfl : state = other := Option.some.inj h
      omega
    · next hin => exact Or.inl ⟨state, rfl, by omega, rfl⟩

/-! ### Keys do not influence each other -/

/-- The limiters agree on a key. -/
structure AgreeOn (key : String) (limiter other : FixedWindowRateLimiter) : Prop where
  max : limiter.max = other.max
  windowMs : limiter.windowMs = other.windowMs
  bucket : limiter.bucket key = other.bucket key

theorem AgreeOn.windowAt {other : FixedWindowRateLimiter} (h : AgreeOn key limiter other)
    (now : ℕ) : limiter.windowAt key now = other.windowAt key now := by
  unfold FixedWindowRateLimiter.windowAt
  rw [h.bucket, h.windowMs]

theorem AgreeOn.answer {other : FixedWindowRateLimiter} (h : AgreeOn call.key limiter other) :
    limiter.answer call = other.answer call := by
  unfold FixedWindowRateLimiter.answer consume
  dsimp only
  rw [h.windowAt, h.max, h.windowMs]

/-- A call of another key leaves the agreement. -/
theorem AgreeOn.skip {other : FixedWindowRateLimiter} (h : AgreeOn key limiter other)
    (hkey : call.key ≠ key) : AgreeOn key (limiter.after call) other :=
  ⟨h.max, h.windowMs, by rw [bucket_after_of_ne hkey, h.bucket]⟩

/-- A call of the key on both sides leaves it too. -/
theorem AgreeOn.after {other : FixedWindowRateLimiter} (h : AgreeOn call.key limiter other) :
    AgreeOn call.key (limiter.after call) (other.after call) :=
  ⟨h.max, h.windowMs, by rw [bucket_after, bucket_after, if_pos rfl, if_pos rfl, h.windowAt]⟩

/-- **The calls of other keys may be left out.** -/
theorem AgreeOn.final {other : FixedWindowRateLimiter} (h : AgreeOn key limiter other)
    (calls : List ConsumeCall) :
    AgreeOn key (Run.final FixedWindowRateLimiter.after limiter calls)
      (Run.final FixedWindowRateLimiter.after other (calls.filter fun c => c.key = key)) := by
  induction calls generalizing limiter other with
  | nil => exact h
  | cons call calls ih =>
    by_cases hkey : call.key = key
    · subst hkey
      rw [List.filter_cons_of_pos (by simp)]
      exact ih h.after
    · rw [List.filter_cons_of_neg (by simpa using hkey)]
      exact ih (h.skip hkey)

/-! ### Counting -/

theorem allowedWithin_cons (limiter : FixedWindowRateLimiter) (call : ConsumeCall)
    (calls : List ConsumeCall) (key : String) (a b : ℕ) :
    limiter.allowedWithin (call :: calls) key a b
      = (if (limiter.answer call).allowed = true ∧ InInterval key a b call then 1 else 0)
        + (limiter.after call).allowedWithin calls key a b := by
  unfold allowedWithin
  rw [allowedCalls]
  by_cases hallowed : (limiter.answer call).allowed = true
  · rw [if_pos hallowed, List.countP_cons]
    by_cases hin : InInterval key a b call
    · simp [hin, hallowed, Nat.add_comm]
    · simp [hin]
  · simp [hallowed]

theorem allowedCalls_sublist (limiter : FixedWindowRateLimiter) (calls : List ConsumeCall) :
    (limiter.allowedCalls calls).Sublist calls := by
  induction calls generalizing limiter with
  | nil => exact List.Sublist.refl _
  | cons call calls ih =>
    rw [allowedCalls]
    split
    · exact (ih _).cons_cons call
    · exact (ih _).cons call

/-- Nothing is allowed in an interval that is over. -/
theorem allowedWithin_eq_zero {a b : ℕ} (h : ∀ call ∈ calls, b < call.time) :
    limiter.allowedWithin calls key a b = 0 := by
  refine List.countP_eq_zero.mpr fun call hmem hin => ?_
  have hlater := h call ((allowedCalls_sublist limiter calls).subset hmem)
  exact absurd (of_decide_eq_true hin).2.2 (Nat.not_le.mpr hlater)

/-- The calls that a window still allows. -/
def left (limiter : FixedWindowRateLimiter) (state : WindowState) : ℕ := limiter.max - state.count

/-- The counted call is one of those its window still allows, if it is allowed. -/
theorem left_counted (limiter : FixedWindowRateLimiter) (call : ConsumeCall) (key : String)
    (a b : ℕ) :
    (if (limiter.answer call).allowed = true ∧ InInterval key a b call then 1 else 0)
        + limiter.left (limiter.windowAt call.key call.time).counted
      ≤ limiter.left (limiter.windowAt call.key call.time) := by
  have hallowed := allowed_answer limiter call
  unfold left WindowState.counted
  dsimp only
  split
  · next h =>
    have := hallowed.mp h.1
    omega
  · omega

/-- Where the window began in the interval, no other begins before the interval is over. -/
theorem allowedWithin_le_of_started (limiter : FixedWindowRateLimiter) {state : WindowState}
    {a b : ℕ} (horder : InOrder calls)
    (hbucket : limiter.bucket key = some state) (hstart : a ≤ state.startedAt)
    (hshort : b < a + limiter.windowMs) :
    limiter.allowedWithin calls key a b ≤ limiter.left state := by
  induction calls generalizing limiter state with
  | nil => simp [allowedWithin, allowedCalls]
  | cons call calls ih =>
    obtain ⟨hfirst, hrest⟩ := List.pairwise_cons.mp horder
    by_cases hkey : call.key = key
    · subst hkey
      rcases windowAt_cases limiter call.key call.time with
        ⟨current, hcurrent, -, hat⟩ | ⟨hover, -⟩
      · obtain rfl : state = current := Option.some.inj (hbucket.symm.trans hcurrent)
        have hlater := ih (limiter.after call) hrest
          (by rw [bucket_after, if_pos rfl]) (by rw [hat]; exact hstart) hshort
        have hcall := left_counted limiter call call.key a b
        rw [allowedWithin_cons, ← hat]
        exact (Nat.add_le_add_left hlater _).trans hcall
      · -- the call opens a window after the interval
        have := hover state hbucket
        rw [allowedWithin_eq_zero]
        · exact Nat.zero_le _
        · intro later hlater
          rcases List.mem_cons.mp hlater with rfl | hlater
          · omega
          · have := hfirst later hlater
            omega
    · rw [allowedWithin_cons, if_neg (fun h => hkey h.2.1), Nat.zero_add]
      exact ih (limiter.after call) hrest (by rwa [bucket_after_of_ne hkey]) hstart
        hshort

/-- From the start of the interval on, the calls that the present window still allows and those
of one more window are all. -/
theorem allowedWithin_le_of_from (limiter : FixedWindowRateLimiter) (key : String) {a b : ℕ}
    (horder : InOrder calls)
    (hfrom : ∀ call ∈ calls, a ≤ call.time) (hshort : b < a + limiter.windowMs) :
    limiter.allowedWithin calls key a b
      ≤ (limiter.bucket key).elim 0 limiter.left + limiter.max := by
  induction calls generalizing limiter with
  | nil => simp [allowedWithin, allowedCalls]
  | cons call calls ih =>
    obtain ⟨-, hrest⟩ := List.pairwise_cons.mp horder
    have hfrom' := fun later hlater => hfrom later (List.mem_cons_of_mem _ hlater)
    by_cases hkey : call.key = key
    · subst hkey
      have hcall := left_counted limiter call call.key a b
      rw [allowedWithin_cons]
      rcases windowAt_cases limiter call.key call.time with
        ⟨state, hstate, -, hat⟩ | ⟨-, hat⟩
      · have hlater := ih (limiter.after call) hrest hfrom' hshort
        rw [bucket_after, if_pos rfl, Option.elim_some] at hlater
        rw [hstate, Option.elim_some, ← hat]
        calc _ ≤ _ + (limiter.left (limiter.windowAt call.key call.time).counted + limiter.max) :=
              Nat.add_le_add_left hlater _
          _ ≤ _ := by omega
      · have hlater := allowedWithin_le_of_started (limiter.after call) hrest
          (by rw [bucket_after, if_pos rfl]) (by rw [hat]; exact hfrom call List.mem_cons_self)
          hshort
        rw [hat] at hcall hlater
        have hnew : limiter.left { startedAt := call.time, count := 0 } = limiter.max := rfl
        calc _ ≤ _ + limiter.left (WindowState.counted { startedAt := call.time, count := 0 }) :=
              Nat.add_le_add_left hlater _
          _ ≤ limiter.max := hcall.trans hnew.le
          _ ≤ _ := Nat.le_add_left _ _
    · rw [allowedWithin_cons, if_neg (fun h => hkey h.2.1), Nat.zero_add]
      have hlater := ih (limiter.after call) hrest hfrom' hshort
      rwa [bucket_after_of_ne hkey] at hlater

/-- **In less than a window at most two windows allow calls.** -/
theorem allowedWithin_le (limiter : FixedWindowRateLimiter) (key : String) {a b : ℕ}
    (horder : InOrder calls)
    (hshort : b < a + limiter.windowMs) :
    limiter.allowedWithin calls key a b ≤ 2 * limiter.max := by
  induction calls generalizing limiter with
  | nil => simp [allowedWithin, allowedCalls]
  | cons call calls ih =>
    obtain ⟨hfirst, hrest⟩ := List.pairwise_cons.mp horder
    by_cases hbefore : call.time < a
    · rw [allowedWithin_cons, if_neg, Nat.zero_add]
      · exact ih (limiter.after call) hrest hshort
      · rintro ⟨-, -, h, -⟩
        omega
    · have hleft : (limiter.bucket key).elim 0 limiter.left ≤ limiter.max := by
        cases limiter.bucket key with
        | none => exact Nat.zero_le _
        | some state => exact Nat.sub_le _ _
      have hall := allowedWithin_le_of_from limiter key horder
        (fun later hlater => by
          rcases List.mem_cons.mp hlater with rfl | hlater
          · omega
          · have := hfirst later hlater
            omega) hshort
      omega

/-! ### Refusals -/

theorem allowedCalls_append (limiter : FixedWindowRateLimiter) (calls : List ConsumeCall)
    (call : ConsumeCall) :
    limiter.allowedCalls (calls ++ [call]) = limiter.allowedCalls calls
      ++ if ((Run.final after limiter calls).answer call).allowed then [call] else [] := by
  induction calls generalizing limiter with
  | nil => rfl
  | cons first calls ih =>
    simp only [List.cons_append, allowedCalls, Run.final_cons, ih]
    split
    · rfl
    · rfl

/-- The number of calls of a key that are allowed from a time on. -/
def allowedSince (limiter : FixedWindowRateLimiter) (calls : List ConsumeCall) (key : String)
    (start : ℕ) : ℕ :=
  (limiter.allowedCalls calls).countP fun call => call.key = key ∧ start ≤ call.time

theorem allowedSince_append (limiter : FixedWindowRateLimiter) (calls : List ConsumeCall)
    (call : ConsumeCall) (key : String) (start : ℕ) :
    limiter.allowedSince (calls ++ [call]) key start
      = limiter.allowedSince calls key start
        + if ((Run.final after limiter calls).answer call).allowed = true ∧ call.key = key ∧
            start ≤ call.time then 1 else 0 := by
  unfold allowedSince
  rw [allowedCalls_append, List.countP_append]
  by_cases hallowed : ((Run.final after limiter calls).answer call).allowed = true
  · simp [hallowed, List.countP_cons]
  · simp [hallowed]

/-- **What a bucket records of the calls so far**: a call of the key opened its window, all calls
of the key came before the window was over, and it counts those in it. -/
structure Records (limiter : FixedWindowRateLimiter) (past : List ConsumeCall) (key : String)
    (state : WindowState) : Prop where
  opened : ∃ call ∈ past, call.key = key ∧ call.time = state.startedAt
  recent : ∀ call ∈ past, call.key = key → call.time < state.startedAt + limiter.windowMs
  count : limiter.allowedSince past key state.startedAt = min state.count limiter.max

/-- The bucket of a key after some calls. -/
def Recorded (limiter : FixedWindowRateLimiter) (past : List ConsumeCall) (key : String) : Prop :=
  match (Run.final after limiter past).bucket key with
  | none => ∀ call ∈ past, call.key ≠ key
  | some state => Records limiter past key state

theorem windowMs_final (limiter : FixedWindowRateLimiter) (calls : List ConsumeCall) :
    (Run.final after limiter calls).windowMs = limiter.windowMs := by
  induction calls generalizing limiter with
  | nil => rfl
  | cons call calls ih => exact ih (limiter.after call)

theorem max_final (limiter : FixedWindowRateLimiter) (calls : List ConsumeCall) :
    (Run.final after limiter calls).max = limiter.max := by
  induction calls generalizing limiter with
  | nil => rfl
  | cons call calls ih => exact ih (limiter.after call)

theorem bucket_final_append (limiter : FixedWindowRateLimiter) (past : List ConsumeCall)
    (call : ConsumeCall) (key : String) :
    (Run.final after limiter (past ++ [call])).bucket key
      = if call.key = key then
          some ((Run.final after limiter past).windowAt call.key call.time).counted
        else (Run.final after limiter past).bucket key := by
  rw [Run.final_append, Run.final_cons, Run.final_nil, bucket_after]

/-- A call of another key changes nothing. -/
theorem Recorded.skip {past : List ConsumeCall} (h : Recorded limiter past key)
    (hkey : call.key ≠ key) : Recorded limiter (past ++ [call]) key := by
  unfold Recorded at h ⊢
  rw [bucket_final_append, if_neg hkey]
  have hmem : ∀ other ∈ past ++ [call], other.key = key → other ∈ past := by
    intro other hother hsame
    rcases List.mem_append.mp hother with hother | hother
    · exact hother
    · rw [List.mem_singleton.mp hother] at hsame
      exact absurd hsame hkey
  cases hb : (Run.final after limiter past).bucket key with
  | none =>
    rw [hb] at h
    exact fun other hother hsame => h other (hmem other hother hsame) hsame
  | some state =>
    rw [hb] at h
    obtain ⟨⟨first, hfirst, hopened⟩, hrecent, hcount⟩ := h
    refine ⟨⟨first, List.mem_append_left _ hfirst, hopened⟩,
      fun other hother hsame => hrecent other (hmem other hother hsame) hsame, ?_⟩
    rw [allowedSince_append, if_neg (fun h => hkey h.2.1), hcount, Nat.add_zero]

/-- A call of the key is counted in its window, or opens one. -/
theorem Recorded.append {past : List ConsumeCall} (h : Recorded limiter past call.key)
    (hbefore : ∀ other ∈ past, other.time ≤ call.time) :
    Recorded limiter (past ++ [call]) call.key := by
  have hallowed := allowed_answer (Run.final after limiter past) call
  have hmax := limiter.one_le_max
  have hwindow := limiter.one_le_windowMs
  unfold Recorded at h ⊢
  rw [bucket_final_append, if_pos rfl]
  dsimp only
  rw [max_final] at hallowed
  rcases windowAt_cases (Run.final after limiter past) call.key call.time with
    ⟨state, hstate, hin, hat⟩ | ⟨hover, hat⟩
  · rw [hat] at hallowed ⊢
    rw [hstate] at h
    rw [windowMs_final] at hin
    obtain ⟨⟨first, hfirst, hsame, hopened⟩, hrecent, hcount⟩ := h
    have hstart : state.startedAt ≤ call.time := hopened ▸ hbefore first hfirst
    refine ⟨⟨first, List.mem_append_left _ hfirst, hsame, hopened⟩, ?_, ?_⟩
    · intro other hother hkey
      rcases List.mem_append.mp hother with hother | hother
      · exact hrecent other hother hkey
      · rw [List.mem_singleton.mp hother]
        exact hin
    · rw [allowedSince_append, show state.counted.startedAt = state.startedAt from rfl, hcount,
        show state.counted.count = state.count + 1 from rfl]
      split
      · next hcounted =>
        have := hallowed.mp hcounted.1
        omega
      · next hrefused =>
        have : ¬ state.count + 1 ≤ limiter.max := fun hle =>
          hrefused ⟨hallowed.mpr hle, rfl, hstart⟩
        omega
  · rw [hat] at hallowed ⊢
    -- no earlier call of the key came this late
    have hearlier : limiter.allowedSince past call.key call.time = 0 := by
      refine List.countP_eq_zero.mpr fun other hother hin => ?_
      obtain ⟨hkey, hlate⟩ := of_decide_eq_true hin
      have hmem := (allowedCalls_sublist limiter past).subset hother
      cases hb : (Run.final after limiter past).bucket call.key with
      | none =>
        rw [hb] at h
        exact h other hmem hkey
      | some state =>
        rw [hb] at h
        have hrecent := h.recent other hmem hkey
        have := hover state hb
        rw [windowMs_final] at this
        omega
    refine ⟨⟨call, by simp, rfl, rfl⟩, ?_, ?_⟩
    · intro other hother _
      have hle : other.time ≤ call.time := by
        rcases List.mem_append.mp hother with hother | hother
        · exact hbefore other hother
        · rw [List.mem_singleton.mp hother]
      exact Nat.lt_of_le_of_lt hle (Nat.lt_add_of_pos_right hwindow)
    · rw [allowedSince_append, show (WindowState.counted ⟨call.time, 0⟩).startedAt = call.time
        from rfl, hearlier, if_pos ⟨hallowed.mpr hmax, rfl, le_rfl⟩]
      show 0 + 1 = min 1 limiter.max
      omega

/-- From the first call on the buckets record the calls. -/
theorem recorded_new (options : FixedWindowRateLimiterOptions) (key : String)
    (horder : InOrder calls) : Recorded (new options) calls key := by
  induction calls using List.reverseRecOn with
  | nil => exact fun _ h => (nomatch h)
  | append_singleton past call ih =>
    obtain ⟨hpast, -, hlast⟩ := List.pairwise_append.mp horder
    by_cases hkey : call.key = key
    · subst hkey
      exact (ih hpast).append fun other hother => hlast other hother call (by simp)
    · exact (ih hpast).skip hkey

/-- **A refused call** finds `max` calls of its key allowed in a window that began less than
`windowMs` ago. -/
theorem full_of_refused {options : FixedWindowRateLimiterOptions} (horder : InOrder calls)
    (hbefore : ∀ other ∈ calls, other.time ≤ call.time)
    (hrefused : ((Run.final after (new options) calls).answer call).allowed = false) :
    ∃ opened ∈ calls, opened.key = call.key ∧ opened.time ≤ call.time ∧
      call.time < opened.time + (new options).windowMs ∧
      (new options).allowedSince calls call.key opened.time = (new options).max := by
  have hrecorded := recorded_new options call.key horder
  have hfull : ¬ ((Run.final after (new options) calls).windowAt call.key call.time).count + 1
      ≤ (new options).max := by
    rw [← max_final (new options) calls, ← allowed_answer _ call, hrefused]
    exact Bool.false_ne_true
  rcases windowAt_cases (Run.final after (new options) calls) call.key call.time with
    ⟨state, hstate, hin, hat⟩ | ⟨-, hat⟩
  · unfold Recorded at hrecorded
    rw [hstate] at hrecorded
    obtain ⟨⟨opened, hmem, hkey, hopened⟩, -, hcount⟩ := hrecorded
    rw [hat] at hfull
    rw [windowMs_final, ← hopened] at hin
    refine ⟨opened, hmem, hkey, hbefore opened hmem, hin, ?_⟩
    rw [hopened, hcount]
    omega
  · rw [hat] at hfull
    exact absurd (new options).one_le_max hfull

end

end FixedWindowRateLimiter

section

open FixedWindowRateLimiter

/-- What a fixed window promises of a sequence of calls. -/
structure FixedWindowBound (limiter : FixedWindowRateLimiter) (calls : List ConsumeCall) :
    Prop where
  /-- In an interval shorter than a window at most `2 * max` calls of a key are allowed. -/
  bound : ∀ key a b, b < a + limiter.windowMs →
    limiter.allowedWithin calls key a b ≤ 2 * limiter.max
  /-- Before a refused call, `max` calls of its key are allowed in its window, which a call of
  the key opened less than `windowMs` ago. -/
  refused : ∀ past call later, calls = past ++ call :: later →
    ((Run.final after limiter past).answer call).allowed = false →
      ∃ opened ∈ past, opened.key = call.key ∧ opened.time ≤ call.time ∧
        call.time < opened.time + limiter.windowMs ∧
        limiter.allowedSince past call.key opened.time = limiter.max
  /-- A call is answered as if there had been no calls of other keys. -/
  isolated : ∀ past call later, calls = past ++ call :: later →
    (Run.final after limiter past).answer call
      = (Run.final after limiter (past.filter fun other => other.key = call.key)).answer call

/-- **Fixed windows** keep their promise, `max` and `windowMs` being those of the limiter: the
given ones, raised to one at least. -/
theorem fixedWindowBound (options : FixedWindowRateLimiterOptions) {calls : List ConsumeCall}
    (horder : InOrder calls) : FixedWindowBound (new options) calls where
  bound key _ _ hshort := allowedWithin_le (new options) key horder hshort
  refused past call later hcalls hrefused := by
    rw [hcalls] at horder
    obtain ⟨hpast, -, hbefore⟩ := List.pairwise_append.mp horder
    exact full_of_refused hpast (fun other hother => hbefore other hother call List.mem_cons_self)
      hrefused
  isolated past call later _ := by
    have hagree : AgreeOn call.key (new options) (new options) := ⟨rfl, rfl, rfl⟩
    exact (hagree.final past).answer

/-- Two calls of one key, and one of another. -/
def sampleRequests : List ConsumeCall := [⟨"ip:1", 1000⟩, ⟨"ip:2", 1000⟩, ⟨"ip:1", 1050⟩]

theorem fixedWindowBound_sampleRequests :
    FixedWindowBound (new ⟨1, 100⟩) sampleRequests :=
  fixedWindowBound ⟨1, 100⟩ (by decide)

/-- With the maximum that is given, zero included, it would be too much. -/
theorem not_bounded_by_options :
    ¬ ∀ (options : FixedWindowRateLimiterOptions) (calls : List ConsumeCall), InOrder calls →
      ∀ (key : String) (a b : ℕ), (b : ℤ) < a + options.windowMs →
        ((new options).allowedWithin calls key a b : ℤ) ≤ 2 * options.max := by
  intro h
  have hzero := h ⟨0, 100⟩ [⟨"ip:1", 1000⟩] (by decide) "ip:1" 1000 1000 (by decide)
  revert hzero
  decide

end

end ObsidianSync
