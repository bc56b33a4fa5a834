import ObsidianSync.Client.Engine
import ObsidianSync.Lib.Run
import ObsidianSync.Server.Log

/-!
# Replaying the log

A client with an empty index that receives the whole log of a vault in vault
order.  The log is numbered without gaps, so the client applies its ops one
after the other, and what one op does to the client decides what the replay of
the next state of the server gives.

## Main definitions

* `replay` — the client after the whole log.
* `appliedStates` — the ops a batch applies, each with the client before it.

## Main results

* `replay_invariant` — an agreement between server and client that one op keeps
  holds between every state of a run and the replay of its log.
-/

namespace ObsidianSync

open Engine

/-! ### Batches -/

section Batch

variable (P : Platform) (cfg : ClientConfig) (now : Time)

/-- The client after one op, with the sequence moved forward. -/
def applyItem (item : AppliedOp) (e : Engine) : Bool × Engine :=
  match Engine.applyOp P cfg now item.op item.resultingClocks.contentVV
      item.resultingClocks.pathClock e with
  | (false, e) => (false, e)
  | (true, e) => (true, { e with index := e.index.setAppliedSeq item.vaultSeq })

/-- The ops a sorted batch applies, each with the client before it. -/
def appliedStates : List AppliedOp → Engine → List (AppliedOp × Engine)
  | [], _ => []
  | item :: rest, e =>
    if item.vaultSeq ≤ e.index.device.appliedSeq then appliedStates rest e
    else if item.vaultSeq ≠ e.index.device.appliedSeq + 1 then []
    else
      match applyItem P cfg now item e with
      | (false, _) => [(item, e)]
      | (true, e') => (item, e) :: appliedStates rest e'

variable {P cfg now}

/-- A batch goes on where its first part ended. -/
theorem applySorted_append {xs : List AppliedOp} (ys : List AppliedOp) {e e' : Engine}
    (h : applySorted P cfg now xs e = (.done, e')) :
    applySorted P cfg now (xs ++ ys) e = applySorted P cfg now ys e' := by
  induction xs generalizing e with
  | nil =>
    obtain rfl : e = e' := by simpa [applySorted] using h
    rfl
  | cons item xs ih =>
    rw [List.cons_append, applySorted]
    rw [applySorted] at h
    split at h
    · next hle => rw [if_pos hle]; exact ih h
    next hle =>
    split at h
    · simp at h
    next hgap =>
    rw [if_neg hle, if_neg hgap]
    split at h
    · simp at h
    · exact ih h

theorem appliedStates_append {xs : List AppliedOp} (ys : List AppliedOp) {e e' : Engine}
    (h : applySorted P cfg now xs e = (.done, e')) :
    appliedStates P cfg now (xs ++ ys) e
      = appliedStates P cfg now xs e ++ appliedStates P cfg now ys e' := by
  induction xs generalizing e with
  | nil =>
    obtain rfl : e = e' := by simpa [applySorted] using h
    rfl
  | cons item xs ih =>
    rw [List.cons_append, appliedStates, appliedStates]
    rw [applySorted] at h
    split at h
    · next hle => rw [if_pos hle, if_pos hle]; exact ih h
    next hle =>
    split at h
    · simp at h
    next hgap =>
    rw [if_neg hle, if_neg hgap, if_neg hle, if_neg hgap]
    split at h
    · simp at h
    · next e₁ happly =>
      simp only [applyItem, happly, List.cons_append]
      rw [ih h]

/-- One op that is next in order. -/
theorem applySorted_singleton {item : AppliedOp} {e e' : Engine}
    (hseq : item.vaultSeq = e.index.device.appliedSeq + 1)
    (happly : applyItem P cfg now item e = (true, e')) :
    applySorted P cfg now [item] e = (.done, e') := by
  have hle : ¬ item.vaultSeq ≤ e.index.device.appliedSeq := by omega
  rcases h₁ : Engine.applyOp P cfg now item.op item.resultingClocks.contentVV
      item.resultingClocks.pathClock e with ⟨_ | _, e₁⟩
  · simp [applyItem, h₁] at happly
  · obtain rfl : { e₁ with index := e₁.index.setAppliedSeq item.vaultSeq } = e' := by
      simpa [applyItem, h₁] using happly
    simp only [applySorted, if_neg hle, if_neg (not_not.mpr hseq), h₁]

theorem appliedStates_singleton {item : AppliedOp} {e e' : Engine}
    (hseq : item.vaultSeq = e.index.device.appliedSeq + 1)
    (happly : applyItem P cfg now item e = (true, e')) :
    appliedStates P cfg now [item] e = [(item, e)] := by
  have hle : ¬ item.vaultSeq ≤ e.index.device.appliedSeq := by omega
  rw [appliedStates, if_neg hle, if_neg (not_not.mpr hseq), happly]
  rfl

end Batch

/-! ### Replay -/

/-- A client with an empty index. -/
def freshEngine (cfg : ClientConfig) : Engine :=
  { index := { device := { deviceId := cfg.deviceId, vaultId := some cfg.vaultId } }
    outbox := OutboxManager.create cfg.deviceId 1 [] }

/-- The client after the whole log of the vault. -/
def replay (P : Platform) (cfg : ClientConfig) (now : Time) (s : Store) (vaultId : String) :
    BatchEnd × Engine :=
  applyOps P cfg now (wholeLog s vaultId) (freshEngine cfg)

/-- The ops the replay applies, each with the client before it. -/
def replayStates (P : Platform) (cfg : ClientConfig) (now : Time) (s : Store)
    (vaultId : String) : List (AppliedOp × Engine) :=
  appliedStates P cfg now (sortedBatch (wholeLog s vaultId)) (freshEngine cfg)

/-- A vault without files and ops. -/
structure FreshVault (vaultId : String) (s : Store) : Prop where
  ops : vaultOps s vaultId = []
  nextSeq : s.nextSeq vaultId = 1
  files : ∀ file ∈ s.files.rows, file.vaultId ≠ vaultId

theorem FreshVault.logNumbered {vaultId : String} {s : Store} (h : FreshVault vaultId s) :
    LogNumbered vaultId s :=
  ⟨by rw [h.ops]; rfl, by rw [h.ops, h.nextSeq]; rfl⟩

theorem sortedBatch_wholeLog {vaultId : String} {s : Store} (h : LogNumbered vaultId s) :
    sortedBatch (wholeLog s vaultId) = (vaultOps s vaultId).map StoredOp.toApplied := by
  rw [wholeLog_eq h]
  refine List.Pairwise.insertionSort_eq ?_
  have hsorted : ((vaultOps s vaultId).map StoredOp.seq).Pairwise (· ≤ ·) := by
    rw [h.seqs]
    exact (List.pairwise_lt_range' (s := 1)).imp Nat.le_of_lt
  rw [List.pairwise_map] at hsorted ⊢
  exact hsorted

/-- The op an event appends to the log of a vault. -/
def loggedIn (P : Platform) (s : Store) (vaultId : String) (ev : ServerEvent) :
    Option AppliedOp :=
  ((loggedEntry P s ev).filter fun op => op.vaultId = vaultId).map StoredOp.toApplied

/-- The state of a replay: it ran to the end, its last sequence is that of the
log, the client agrees with the server by `A`, and each op it applied met `W`. -/
structure Replayed (P : Platform) (cfg : ClientConfig) (now : Time) (vaultId : String)
    (A : Store → Engine → Prop) (W : AppliedOp → Engine → Prop) (s : Store) (e : Engine) :
    Prop where
  numbered : LogNumbered vaultId s
  done : replay P cfg now s vaultId = (.done, e)
  appliedSeq : e.index.device.appliedSeq = (vaultOps s vaultId).length
  agrees : A s e
  writes : ∀ p ∈ replayStates P cfg now s vaultId, W p.1 p.2

section Invariant

variable {P : Platform} {cfg : ClientConfig} {now : Time} {vaultId : String}
  {A : Store → Engine → Prop} {W : AppliedOp → Engine → Prop} {C : Store → ServerEvent → Prop}

theorem Replayed.initial {s : Store} (hs : FreshVault vaultId s) (hA : A s (freshEngine cfg)) :
    Replayed P cfg now vaultId A W s (freshEngine cfg) := by
  have hbatch : sortedBatch (wholeLog s vaultId) = [] := by
    rw [sortedBatch_wholeLog hs.logNumbered, hs.ops]
    rfl
  refine ⟨hs.logNumbered, ?_, ?_, hA, ?_⟩
  · rw [replay, applyOps, hbatch]
    rfl
  · rw [hs.ops]
    rfl
  · rw [replayStates, hbatch]
    intro p hp
    simp [appliedStates] at hp

/-- One event: the client applies the op it logged, if it logged one in the vault. -/
theorem Replayed.step {s : Store} {e : Engine} (h : Replayed P cfg now vaultId A W s e)
    (ev : ServerEvent)
    (hnone : loggedIn P s vaultId ev = none → A (serverStep P s ev) e)
    (hsome : ∀ item, loggedIn P s vaultId ev = some item →
      W item e ∧ ∃ e', applyItem P cfg now item e = (true, e') ∧
        e'.index.device.appliedSeq = max e.index.device.appliedSeq item.vaultSeq ∧
        A (serverStep P s ev) e') :
    ∃ e', Replayed P cfg now vaultId A W (serverStep P s ev) e' := by
  have hnum := logNumbered_serverStep (P := P) h.numbered ev
  have hops := vaultOps_serverStep P s ev vaultId
  have hdone := h.done
  have hwrites := h.writes
  rw [replay, applyOps, sortedBatch_wholeLog h.numbered] at hdone
  rw [replayStates, sortedBatch_wholeLog h.numbered] at hwrites
  cases hlog : (loggedEntry P s ev).filter fun op => op.vaultId = vaultId with
  | none =>
    -- nothing was logged in this vault: the replay is the same
    have hsame : vaultOps (serverStep P s ev) vaultId = vaultOps s vaultId := by
      rw [hops]
      cases hentry : loggedEntry P s ev with
      | none => simp
      | some op =>
        rw [hentry] at hlog
        simpa [Option.filter] using hlog
    refine ⟨e, hnum, ?_, by rw [hsame]; exact h.appliedSeq, hnone (by simp [loggedIn, hlog]), ?_⟩
    · rw [replay, applyOps, sortedBatch_wholeLog hnum, hsame]
      exact hdone
    · rw [replayStates, sortedBatch_wholeLog hnum, hsame]
      exact hwrites
  | some op =>
    obtain ⟨hentry, hvault⟩ : loggedEntry P s ev = some op ∧ op.vaultId = vaultId := by
      rw [Option.filter_eq_some_iff] at hlog
      simpa using hlog
    have hlast : vaultOps (serverStep P s ev) vaultId = vaultOps s vaultId ++ [op] := by
      rw [hops, hentry]
      simp [hvault]
    obtain ⟨hW, e', happly, hseq', hA⟩ := hsome op.toApplied (by simp [loggedIn, hlog])
    -- its sequence is the next one for the client too
    have hseq : op.toApplied.vaultSeq = e.index.device.appliedSeq + 1 := by
      rw [h.appliedSeq, show op.toApplied.vaultSeq = op.seq from rfl, seq_loggedEntry hentry,
        hvault, h.numbered.nextSeq]
    refine ⟨e', hnum, ?_, ?_, hA, ?_⟩
    · rw [replay, applyOps, sortedBatch_wholeLog hnum, hlast, List.map_append,
        applySorted_append _ hdone]
      exact applySorted_singleton hseq happly
    · rw [hseq', hseq, hlast, List.length_append, List.length_singleton, h.appliedSeq]
      omega
    · rw [replayStates, sortedBatch_wholeLog hnum, hlast, List.map_append,
        appliedStates_append _ hdone]
      intro p hp
      rcases List.mem_append.mp hp with hp | hp
      · exact hwrites p hp
      · rw [List.map_singleton, appliedStates_singleton hseq happly, List.mem_singleton] at hp
        rw [hp]
        exact hW

/-- **The replay invariant.**  If every event that meets `C` keeps the agreement
`A` between the server and a client that applies the op it logs, then in every
state of a run whose events meet `C` the replay of the log ends in agreement. -/
theorem replay_invariant
    (hnone : ∀ s ev e, A s e → C s ev → loggedIn P s vaultId ev = none →
      A (serverStep P s ev) e)
    (hsome : ∀ s ev e item, A s e → C s ev → loggedIn P s vaultId ev = some item →
      W item e ∧ ∃ e', applyItem P cfg now item e = (true, e') ∧
        e'.index.device.appliedSeq = max e.index.device.appliedSeq item.vaultSeq ∧
        A (serverStep P s ev) e')
    {s : Store} (hs : FreshVault vaultId s) (hA : A s (freshEngine cfg)) {es : List ServerEvent}
    (hC : Run.EachStep (serverStep P) C s es) :
    Run.Throughout (serverStep P) (fun s => ∃ e, Replayed P cfg now vaultId A W s e) s es := by
  refine Run.throughout_of_invariant (C := C) ?_ ⟨_, Replayed.initial hs hA⟩ hC
  rintro s ev ⟨e, he⟩ hCs
  exact he.step ev (hnone s ev e he.agrees hCs) fun item => hsome s ev e item he.agrees hCs

/-- The file rows of a vault are the same. -/
def SameRows (vaultId : String) (s s' : Store) : Prop :=
  ∀ fileId, s'.getFile vaultId fileId = s.getFile vaultId fileId

/-- **The replay invariant by ops.**  For runs without resolutions it is enough
that `A` depends on the rows of the vault, and that each accepted op keeps it. -/
theorem replay_invariant_of_ops (now : Time)
    (hrows : ∀ s s' e, SameRows vaultId s s' → A s e → A s' e)
    (hseq : ∀ s e seq, A s e → A s { e with index := e.index.setAppliedSeq seq })
    (hresolve : ∀ s t input, C s (.resolve t input) → resolution P input s = none)
    (hop : ∀ s t uuid op userId applied e, A s e → C s (.process t uuid op userId) →
      accepted P t uuid op userId s = some applied → op.vaultId = vaultId →
      W { vaultSeq := s.nextSeq vaultId, op, resultingClocks := clocks applied.file } e ∧
      ∃ e', Engine.applyOp P cfg now op (some applied.file.contentVV)
          (some applied.file.pathClock) e = (true, e') ∧
        e'.index.device.appliedSeq = e.index.device.appliedSeq ∧
        A (serverStep P s (.process t uuid op userId)) e')
    {s : Store} (hs : FreshVault vaultId s) (hA : A s (freshEngine cfg)) {es : List ServerEvent}
    (hC : Run.EachStep (serverStep P) C s es) :
    Run.Throughout (serverStep P) (fun s => ∃ e, Replayed P cfg now vaultId A W s e) s es := by
  -- an event that writes no row of the vault
  have hidle : ∀ s ev e, A s e → writtenFile P s ev = none → A (serverStep P s ev) e := by
    intro s ev e hA hw
    refine hrows s _ e (fun fileId => ?_) hA
    rw [getFile_serverStep, hw]
  refine replay_invariant ?_ ?_ hs hA hC
  · intro s ev e hA hC hlog
    cases ev with
    | process t uuid op userId =>
      cases ha : accepted P t uuid op userId s with
      | none => exact hidle _ _ _ hA (by simp [writtenFile, ha])
      | some applied =>
        have hvault : op.vaultId ≠ vaultId := by
          intro hv
          simp [loggedIn, loggedEntry, ha, loggedOp, hv] at hlog
        refine hrows s _ e (fun fileId => ?_) hA
        have hkey := key_of_effect (accepted_spec ha).effect
        rw [getFile_serverStep]
        simp only [writtenFile, ha, Option.map_some, hkey, Prod.mk.injEq, hvault, false_and,
          if_false]
    | resolve t input => exact hidle _ _ _ hA (by simp [writtenFile, hresolve s t input hC])
    | claim | release | saveDevice | setRole | saveBlob | putContent => exact hidle _ _ _ hA rfl
  · intro s ev e item hA hC hlog
    cases ev with
    | process t uuid op userId =>
      cases ha : accepted P t uuid op userId s with
      | none => simp [loggedIn, loggedEntry, ha] at hlog
      | some applied =>
        by_cases hvault : op.vaultId = vaultId
        · obtain rfl : AppliedOp.mk (s.nextSeq vaultId) op (clocks applied.file) = item := by
            simpa [loggedIn, loggedEntry, ha, loggedOp, hvault, StoredOp.toApplied,
              StoredOp.resultingClocks, ackOf] using hlog
          obtain ⟨hW, e', happly, hsame, hA'⟩ := hop s t uuid op userId applied e hA hC ha hvault
          refine ⟨hW, { e' with index := e'.index.setAppliedSeq (s.nextSeq vaultId) }, ?_, ?_,
            hseq _ _ _ hA'⟩
          · simp only [applyItem, clocks, happly]
          · simp [hsame]
        · simp [loggedIn, loggedEntry, ha, loggedOp, hvault] at hlog
    | claim | release | resolve | saveDevice | setRole | saveBlob | putContent =>
      simp [loggedIn, loggedEntry] at hlog

end Invariant

end ObsidianSync
