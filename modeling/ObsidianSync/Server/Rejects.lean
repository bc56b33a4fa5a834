import ObsidianSync.Lib.Run
import ObsidianSync.Server.System

/-!
# What a reject leaves behind

A failing op is answered inside its transaction, so whatever was written before
the failure is committed.  The checks on the device come before any write; the
validation of the payload keeps the inline text of the op and goes on checking,
and the guards and the applier run after it.  So a rejected op changes nothing
but the kept content, and it changes that exactly if its text passed and is new.

## Main definitions

* `PassedText` — the op passes the checks before the write of its text.
* `LeavesText` — it gets there, with a text the store does not have.

## Main results

* `process_of_reject` — a reject changes the kept content at most.
* `process_of_reject_iff` — it changes nothing exactly if no new text was kept.
-/

namespace ObsidianSync

/-- The op passes the checks that stand before the write of its inline text. -/
structure PassedText (P : Platform) (op : FileOp) (text : String) : Prop where
  opId : op.opId ≠ ""
  deviceId : op.deviceId ≠ ""
  vaultId : op.vaultId ≠ ""
  fileId : op.fileId ≠ ""
  safeSeq : isSafeInteger op.deviceSeq = true
  deviceSeq : 1 ≤ op.deviceSeq
  newPath : op.kind = .create → truthy op.newPath = true
  canonical : truthy op.newPath = true → ∃ path, normalizePath P (op.newPath.getD "") = .ok path
  content : op.kind.isContent = true
  plain : op.contentEncoding = none
  inlineText : op.inlineText = some text
  contentHash : op.contentHash = some (contentHashText P text)

/-- The op gets to the write of its inline text, and the store does not have the text. -/
def LeavesText (P : Platform) (op : FileOp) (userId : Option String) (s : Store) : Prop :=
  s.getOpById op.opId = none ∧ checkDevice op userId s = none ∧
    ∃ text, PassedText P op text ∧
      s.getContent (contentHashText P text) ≠ some (encodeText text)

section

variable {P : Platform} {now : Time} {uuid : Uuid} {op : FileOp} {userId : Option String}
  {s : Store}

/-- A text is kept for good: writing it where it is kept already changes nothing, and
nothing else does. -/
theorem putContent_eq_self_iff {hash : String} {bytes : Bytes} :
    s.putContent hash bytes = s ↔ s.getContent hash = some bytes := by
  constructor
  · intro h
    rw [← h, Store.getContent, Store.putContent, Table.get?_set_self]
    rfl
  · intro h
    rw [Store.getContent, Option.map_eq_some_iff] at h
    obtain ⟨⟨hash', bytes'⟩, hget, rfl⟩ := h
    obtain rfl : hash' = hash := Table.key_of_get? hget
    have hcontent : s.content.set (hash', bytes') = s.content :=
      Table.ext (Table.setRows_of_mem s.content.nodup (Table.mem_of_get? hget))
    rw [Store.putContent, hcontent]

/-- With its text passed, validation keeps it and looks at the blob. -/
theorem validatePayload_of_passedText {text : String} (h : PassedText P op text) (s : Store) :
    (validatePayload P op s).2 = s.putContent (contentHashText P text) (encodeText text) := by
  have hvalid : isValidContentHash (contentHashText P text) = true :=
    isValidContentHash_contentHash P (encodeText text)
  have hids : (op.opId = "" || op.deviceId = "" || op.vaultId = "" || op.fileId = "" ||
      !isSafeInteger op.deviceSeq || decide (op.deviceSeq < 1)) = false := by
    have := h.deviceSeq
    simp [h.opId, h.deviceId, h.vaultId, h.fileId, h.safeSeq]
    omega
  have hnewPath : ((op.kind = .create || op.kind = .rename) && !truthy op.newPath) = false := by
    have hcontent := h.content
    have hcreate := h.newPath
    cases hkind : op.kind <;> simp_all [OpKind.isContent]
  have hcanonical : ∃ path, (if truthy op.newPath then normalized P (op.newPath.getD "")
      else .ok "") = .ok path := by
    split
    · next hpath =>
      obtain ⟨path, hpath⟩ := h.canonical hpath
      exact ⟨path, normalized_ok_iff.mpr hpath⟩
    · exact ⟨"", rfl⟩
  obtain ⟨path, hcanonical⟩ := hcanonical
  unfold validatePayload
  rw [hids, if_neg Bool.false_ne_true, hnewPath, if_neg Bool.false_ne_true, hcanonical]
  have hne : contentHashText P text ≠ "" := ne_empty_of_isValidContentHash hvalid
  simp [h.content, h.contentHash, hne, validateContent, hvalid, h.plain, h.inlineText]

/-- Where no text passes, validation writes nothing. -/
theorem validatePayload_of_not_passedText (h : ∀ text, ¬ PassedText P op text) (s : Store) :
    (validatePayload P op s).2 = s := by
  unfold validatePayload
  split
  · rfl
  next hids =>
  split
  · rfl
  next hnewPath =>
  split
  · rfl
  next path hcanonical =>
  split
  · next hcontent =>
    unfold validateContent
    split
    · rfl
    split
    · rfl
    next hplain =>
    split
    · rfl
    split
    · rfl
    next text htext =>
    split
    · rfl
    next hhash =>
    -- the text has passed every check there is
    rw [Bool.and_eq_true] at hcontent
    have hcontentHash : op.contentHash = some (contentHashText P text) := by
      cases hh : op.contentHash with
      | none => simp [hh] at hcontent
      | some hash => simpa [hh] using (not_not.mp hhash).symm
    refine absurd ?_ (h text)
    simp only [Bool.or_eq_true, decide_eq_true_eq, Bool.not_eq_true', not_or, Nat.not_lt,
      Bool.not_eq_false] at hids
    obtain ⟨⟨⟨⟨⟨hopId, hdeviceId⟩, hvaultId⟩, hfileId⟩, hsafe⟩, hseq⟩ := hids
    refine ⟨hopId, hdeviceId, hvaultId, hfileId, hsafe, hseq, ?_, ?_, hcontent.1, ?_, htext,
      hcontentHash⟩
    · intro hkind
      by_contra hne
      exact hnewPath (by simpa [hne] using Or.inl hkind)
    · intro hpath
      rw [if_pos hpath] at hcanonical
      exact ⟨path, normalized_ok_iff.mp hcanonical⟩
    · simpa [htext] using hplain
  · rfl

/-- What a rejected op has written: what its validation wrote, if it came to that. -/
theorem process_eq_of_reject {r : OpRejectResult}
    (h : (process P now uuid op userId s).1 = .ok (.reject r)) :
    (process P now uuid op userId s).2
      = if s.getOpById op.opId = none ∧ checkDevice op userId s = none then
          (validatePayload P op s).2
        else s := by
  unfold process at h ⊢
  cases hfresh : s.getOpById op.opId with
  | some existing => rfl
  | none =>
    cases hdevice : checkDevice op userId s with
    | some answer => rfl
    | none =>
      simp only [hfresh, hdevice] at h
      rcases hvalid : validatePayload P op s with ⟨e | u, tx⟩
      · rfl
      · simp only [hvalid] at h
        cases happly : applyOp P now uuid op (tx.getFile op.vaultId op.fileId) tx with
        | error e => simp only [happly, and_self, if_true]
        | ok applied => simp [happly] at h

/-- **A reject changes the kept content at most.** -/
theorem process_of_reject {r : OpRejectResult}
    (h : (process P now uuid op userId s).1 = .ok (.reject r)) :
    ∃ content, (process P now uuid op userId s).2 = { s with content } := by
  rw [process_eq_of_reject h]
  by_cases hpassed : ∃ text, PassedText P op text
  · obtain ⟨text, hpassed⟩ := hpassed
    rw [validatePayload_of_passedText hpassed]
    split
    · exact ⟨_, rfl⟩
    · exact ⟨s.content, rfl⟩
  · rw [validatePayload_of_not_passedText fun text ht => hpassed ⟨text, ht⟩, ite_self]
    exact ⟨s.content, rfl⟩

/-- **A reject changes nothing** exactly if the op did not get to the write of an inline
text that the store does not have. -/
theorem process_of_reject_iff {r : OpRejectResult}
    (h : (process P now uuid op userId s).1 = .ok (.reject r)) :
    (process P now uuid op userId s).2 = s ↔ ¬ LeavesText P op userId s := by
  rw [process_eq_of_reject h]
  by_cases hchecked : s.getOpById op.opId = none ∧ checkDevice op userId s = none
  · rw [if_pos hchecked]
    constructor
    · rintro hsame ⟨-, -, text, hpassed, hnew⟩
      rw [validatePayload_of_passedText hpassed] at hsame
      exact hnew (putContent_eq_self_iff.mp hsame)
    · intro hleaves
      by_cases hpassed : ∃ text, PassedText P op text
      · obtain ⟨text, hpassed⟩ := hpassed
        rw [validatePayload_of_passedText hpassed, putContent_eq_self_iff]
        by_contra hnew
        exact hleaves ⟨hchecked.1, hchecked.2, text, hpassed, hnew⟩
      · exact validatePayload_of_not_passedText (fun text ht => hpassed ⟨text, ht⟩) s
  · rw [if_neg hchecked]
    exact ⟨fun _ hleaves => hchecked ⟨hleaves.1, hleaves.2.1⟩, fun _ => rfl⟩

end

/-- A device joins the sample vault. -/
def joinedVault : List ServerEvent :=
  [.setRole "v" "u" .owner,
   .saveDevice { deviceId := "d1", userId := "u", vaultId := "v", lastDeviceSeq := 0, lastSeq := 0,
                 revoked := false }]

/-- An update of a note the server does not have. -/
def strayUpdate : FileOp :=
  sampleContentOp .update "o1" "d1" "f" 1 none (sampleVV "d1" 1) "one"

/-- A sequence that is not the next one is rejected before anything is written. -/
theorem process_of_reject_iff_gap :
    (process samplePlatform 0 sampleUuid { strayUpdate with deviceSeq := 2 } (some "u")
      (Run.final (serverStep samplePlatform) {} joinedVault)).2
      = Run.final (serverStep samplePlatform) {} joinedVault := by
  have hreject : (process samplePlatform 0 sampleUuid { strayUpdate with deviceSeq := 2 }
      (some "u") (Run.final (serverStep samplePlatform) {} joinedVault)).1
      = .ok (reject "o1" .SEQ_GAP "Device sequence gap" (some (.expected 1))) := by
    decide +kernel
  refine (process_of_reject_iff hreject).mpr ?_
  rintro ⟨-, hdevice, -⟩
  revert hdevice
  decide +kernel

/-- The text of a rejected update stays. -/
theorem not_unchanged_strayUpdate :
    (process samplePlatform 0 sampleUuid strayUpdate (some "u")
        (Run.final (serverStep samplePlatform) {} joinedVault)).1
      = .ok (reject "o1" .NOT_FOUND "File not found") ∧
    (process samplePlatform 0 sampleUuid strayUpdate (some "u")
        (Run.final (serverStep samplePlatform) {} joinedVault)).2
      ≠ Run.final (serverStep samplePlatform) {} joinedVault := by
  decide +kernel

end ObsidianSync
