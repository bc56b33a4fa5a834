import ObsidianSync.Client.Plugin
import ObsidianSync.Shared.Envelope

/-!
# What leaves an encrypting client

Where content encryption is enabled, content is to leave the client as the hash of an envelope
that was uploaded, and realtime sessions, which exchange plain text, are not to be opened.

The key is unlocked here.  Uploading is left out; what is uploaded is what is hashed.

## Main definitions

* `Hidden` — a message that gives no content away.
* `Encrypting`, `StartsEncrypted` — a client with encryption, and how it starts.
* `KeepsHidden` — no conflict is resolved by a text or by the hash of something else than an
  envelope.

## Main results

* `Concealed.handleMessage`, `Concealed.syncPath`, … — the engine only sends what is hidden.
* `hiddenStep_of_not_isResolution` — nor does anything else but the resolution of conflicts.
* `hidden_iff_keepsHidden` — **nothing the plugin sends gives content away exactly where no
  conflict is resolved so.**
* `not_hidden_mergedText` — a text that resolves a conflict is sent as it is.
-/

namespace ObsidianSync

open Engine

section

variable {D : Type}

/-! ### The property -/

/-- The hash of an envelope. -/
def EnvelopeHash (P : Platform) (hash : String) : Prop :=
  ∃ parts, hash = contentHash P (serializeEncryptedBlob parts)

/-- Content that is not given away: there is no text, and the hashes are those of envelopes. -/
structure HiddenContent (P : Platform) (inlineText contentHash blobRef : Option String) : Prop where
  inlineText : inlineText = none
  contentHash : ∀ hash ∈ contentHash, EnvelopeHash P hash
  blobRef : ∀ hash ∈ blobRef, EnvelopeHash P hash

/-- The content an op brings is hidden. -/
def HiddenOp (P : Platform) (op : FileOp) : Prop :=
  HiddenContent P op.inlineText op.contentHash op.blobRef

/-- A message of the engine that gives no content away and asks for no room. -/
def HiddenMessage (P : Platform) : ClientMessage → Prop
  | .fileOp op => HiddenOp P op
  | .promote _ => False
  | .hello .. | .getOps _ => True

/-- A message that gives no content away and asks for no room. -/
def Hidden (P : Platform) : PluginMessage D → Prop
  | .sync message => HiddenMessage P message
  | .session _ .promote | .session _ (.yjsUpdate ..) => False
  | .session _ (.leaveRoom _) | .session _ (.yjsSync ..) => True
  | .resolveConflict _ resolvedHash inlineText _ => HiddenContent P inlineText resolvedHash none

/-- **No message gives content away.** -/
def AllHidden (P : Platform) (p : Plugin D) : Prop := ∀ message ∈ p.sent, Hidden P message

/-! ### The condition -/

/-- What is stored is an envelope. -/
structure Encrypting (cfg : ClientConfig) : Prop where
  enabled : cfg.encryptionEnabled = true
  envelope : ∀ plaintext, ∃ parts, cfg.encryptForStorage plaintext = serializeEncryptedBlob parts

/-- The plugin starts without sessions, and what the outbox holds was enqueued by an encrypting
client. -/
structure StartsEncrypted (P : Platform) (p : Plugin D) : Prop where
  outbox : ∀ entry ∈ p.watcher.engine.outbox.map.rows, HiddenOp P entry.op
  outgoing : p.watcher.engine.outgoing = []
  yjs : ∀ fileId, p.yjs fileId = {}
  sent : p.sent = []

/-- No conflict is resolved by a text, or by the hash of something else than an envelope. -/
def KeepsHidden (P : Platform) : PluginEvent D → Prop
  | .resolveText .. => False
  | .resolveByHash conflict side =>
    truthy (side.hash conflict) = true → ∀ hash ∈ side.hash conflict, EnvelopeHash P hash
  | _ => True

end

/-! ### The engine -/

/-- The outbox and the messages of the engine give no content away. -/
structure Concealed (P : Platform) (e : Engine) : Prop where
  outbox : ∀ entry ∈ e.outbox.map.rows, HiddenOp P entry.op
  outgoing : ∀ message ∈ e.outgoing, HiddenMessage P message

/-- All entries of an outbox are hidden. -/
def HiddenOutbox (P : Platform) (m : OutboxManager) : Prop :=
  ∀ entry ∈ m.map.rows, HiddenOp P entry.op

section

variable {P : Platform} {cfg : ClientConfig} {e : Engine} {m : OutboxManager}

/-- A change of an entry that leaves its op alone. -/
theorem hiddenOutbox_modify (h : HiddenOutbox P m) (opId : String)
    {f : OutboxEntry → OutboxEntry} (hf : ∀ entry, (f entry).op = entry.op) :
    HiddenOutbox P (m.modify opId f) := by
  unfold OutboxManager.modify
  split
  · exact h
  · next entry hentry =>
    intro row hrow
    rcases Table.mem_set_iff.mp hrow with rfl | ⟨hmem, -⟩
    · rw [hf]
      exact h entry (Table.mem_of_get? hentry)
    · exact h row hmem

theorem hiddenOutbox_erase (h : HiddenOutbox P m) (opId : String) (n : ℕ) :
    HiddenOutbox P { m with map := m.map.erase opId, nextDeviceSeq := n } :=
  fun row hrow => h row (Table.mem_erase_iff.mp hrow).1

theorem hiddenOutbox_removeAndReindex (h : HiddenOutbox P m) (opId : String) :
    HiddenOutbox P (m.removeAndReindex opId) := by
  unfold OutboxManager.removeAndReindex
  split
  · exact h
  · intro row hrow
    rw [Table.rows_mapRows] at hrow
    obtain ⟨old, hold, rfl⟩ := List.mem_map.mp hrow
    have hop := h old (Table.mem_erase_iff.mp hold).1
    unfold OutboxManager.reindexed
    split
    · exact hop
    · exact hop

/-- The content of a draft is that of the op. -/
theorem hiddenOutbox_enqueue (h : HiddenOutbox P m) {draft : FileOpDraft}
    (hdraft : HiddenContent P draft.inlineText draft.contentHash draft.blobRef) (now : Time)
    (uuid : Uuid) : HiddenOutbox P (m.enqueue now uuid draft).2 := by
  intro row hrow
  rcases Table.mem_set_iff.mp hrow with rfl | ⟨hmem, -⟩
  · exact hdraft
  · exact h row hmem

/-- The next entry is one of the outbox. -/
theorem hiddenOp_nextToSend (h : HiddenOutbox P e.outbox) {entry : OutboxEntry}
    (hnext : e.nextToSend = some entry) : HiddenOp P entry.op :=
  h entry (nextToSend_spec hnext).1

namespace Concealed

theorem send (h : Concealed P e) {message : ClientMessage} (hm : HiddenMessage P message) :
    Concealed P (e.send message) where
  outbox := h.outbox
  outgoing := by
    intro message' hmem
    rcases List.mem_append.mp hmem with hmem | hmem
    · exact h.outgoing message' hmem
    · rw [List.mem_singleton.mp hmem]
      exact hm

/-- Only the outbox and the messages count. -/
theorem congr {e' : Engine} (h : Concealed P e) (hsame : SameSending e e') : Concealed P e' where
  outbox := by
    rw [hsame.outbox]
    exact h.outbox
  outgoing := by
    rw [hsame.outgoing]
    exact h.outgoing

theorem withOutbox (h : Concealed P e) {m : OutboxManager} (hm : HiddenOutbox P m) :
    Concealed P { e with outbox := m } := ⟨hm, h.outgoing⟩

theorem persistOutbox (h : Concealed P e) : Concealed P (persistOutbox e) :=
  h.congr ⟨rfl, rfl⟩

theorem requestResync (h : Concealed P e) : Concealed P (requestResync e) := h.send trivial

theorem flushOutbox (h : Concealed P e) (now : Time) : Concealed P (flushOutbox now e) := by
  rcases flushOutbox_cases now e with hflush | ⟨entry, hnext, ⟨-, hflush⟩ | hflush⟩ <;> rw [hflush]
  · exact h
  · exact h.send (hiddenOp_nextToSend h.outbox hnext)
  · apply Concealed.persistOutbox
    apply Concealed.send
    · exact h.withOutbox (hiddenOutbox_modify h.outbox _ fun _ => rfl)
    · exact hiddenOp_nextToSend h.outbox hnext

theorem enqueueLocalChange (h : Concealed P e) {draft : FileOpDraft}
    (hdraft : HiddenContent P draft.inlineText draft.contentHash draft.blobRef) (now : Time)
    (uuid : Uuid) : Concealed P (e.enqueueLocalChange now uuid draft) := by
  apply Concealed.flushOutbox
  apply Concealed.persistOutbox
  exact h.withOutbox (hiddenOutbox_enqueue h.outbox hdraft now uuid)

end Concealed

/-! ### Local changes -/

/-- An encrypting client builds the hash of an envelope. -/
theorem hidden_buildContentPayload (hcfg : Encrypting cfg) {vault : Vault} {path : String}
    {payload : ContentPayload} (h : buildContentPayload P cfg vault path = some payload) :
    HiddenContent P payload.inlineText (some payload.contentHash) payload.blobRef := by
  unfold buildContentPayload at h
  rw [if_pos hcfg.enabled] at h
  split at h
  · simp at h
  · next plaintext _ =>
    obtain rfl := Option.some.inj h
    obtain ⟨parts, hparts⟩ := hcfg.envelope plaintext
    have henvelope : EnvelopeHash P (contentHash P (cfg.encryptForStorage plaintext)) :=
      ⟨parts, by rw [hparts]⟩
    refine ⟨rfl, ?_, ?_⟩ <;>
    · rintro hash ⟨⟩
      exact henvelope

theorem hidden_makeContentOp (hcfg : Encrypting cfg) {fileId path : String} {type : FileType}
    {draft : FileOpDraft} (h : makeContentOp P cfg e fileId path type = some draft) :
    HiddenContent P draft.inlineText draft.contentHash draft.blobRef := by
  unfold makeContentOp at h
  dsimp only at h
  split at h
  · simp at h
  · next payload hpayload =>
    obtain rfl := Option.some.inj h
    exact hidden_buildContentPayload hcfg hpayload

theorem hidden_makeForcedContentOp (hcfg : Encrypting cfg) {fileId path : String}
    {type : FileType} {dominateVV : VersionVector} {remoteExists : Bool} {draft : FileOpDraft}
    (h : makeForcedContentOp P cfg e fileId path type dominateVV remoteExists = some draft) :
    HiddenContent P draft.inlineText draft.contentHash draft.blobRef := by
  unfold makeForcedContentOp at h
  dsimp only at h
  split at h
  · simp at h
  · next payload hpayload =>
    obtain rfl := Option.some.inj h
    exact hidden_buildContentPayload hcfg hpayload

theorem hiddenContent_none : HiddenContent P none none none :=
  ⟨rfl, fun _ h => by simp at h, fun _ h => by simp at h⟩

namespace Concealed

theorem syncPath (h : Concealed P e) (hcfg : Encrypting cfg) (now : Time) (opId fileId : Uuid)
    (path : String) : Concealed P (e.syncPath P cfg now opId fileId path) := by
  unfold Engine.syncPath
  split
  · exact h
  dsimp only
  split
  · exact h
  · next draft hdraft => exact h.enqueueLocalChange (hidden_makeContentOp hcfg hdraft) now opId

theorem handleRename (h : Concealed P e) (hcfg : Encrypting cfg) (now : Time)
    (opId fileId : Uuid) (oldPath newPath : String) :
    Concealed P (e.handleRename P cfg now opId fileId oldPath newPath) := by
  unfold Engine.handleRename
  split
  · exact h
  split
  · split
    · exact h
    split
    · exact h.syncPath hcfg now opId fileId _
    · unfold makeRenameOp
      apply Concealed.enqueueLocalChange
      · exact h.congr ⟨rfl, rfl⟩
      · exact hiddenContent_none
  · exact h

theorem handleDelete (h : Concealed P e) (now : Time) (opId : Uuid) (path : String) :
    Concealed P (e.handleDelete P cfg now opId path) := by
  unfold Engine.handleDelete
  split
  · exact h
  split
  · exact h
  dsimp only
  split
  · exact h
  · unfold makeDeleteOp
    apply Concealed.enqueueLocalChange
    · exact h.congr ⟨rfl, rfl⟩
    · exact hiddenContent_none

theorem endForced (h : Concealed P e) (now : Time) (op : FileOp) (result : ForcePushOpResult) :
    Concealed P (endForced P now op result e) := by
  apply Concealed.persistOutbox
  split
  · unfold applyForcedToIndex
    dsimp only
    split
    · exact h.congr ⟨rfl, rfl⟩
    split
    · exact h
    · exact h.congr ⟨rfl, rfl⟩
  split
  · exact h
  split
  · next outbox hrollback =>
    refine h.withOutbox ?_
    unfold OutboxManager.rollbackLast at hrollback
    split at hrollback
    · simp at hrollback
    split at hrollback
    · simp at hrollback
    · obtain rfl := Option.some.inj hrollback
      exact hiddenOutbox_erase h.outbox _ _
  · exact h.withOutbox (hiddenOutbox_modify h.outbox _ fun _ => rfl)

theorem pushForced (h : Concealed P e) {draft : FileOpDraft}
    (hdraft : HiddenContent P draft.inlineText draft.contentHash draft.blobRef) (now : Time)
    (uuid : Uuid) : Concealed P (pushForced P now uuid draft e).2 := by
  have henqueued := h.withOutbox (hiddenOutbox_enqueue h.outbox hdraft now uuid)
  unfold Engine.pushForced
  dsimp only
  split
  · exact henqueued.persistOutbox.endForced now _ _
  · apply Concealed.send
    · exact ⟨hiddenOutbox_modify henqueued.outbox _ fun _ => rfl, henqueued.outgoing⟩
    · exact hdraft

end Concealed

/-! ### Messages of the server -/

namespace Concealed

theorem handleAck (h : Concealed P e) (now : Time) (opId : String) (vaultSeq : ℕ)
    (conflictId : Option String) : Concealed P (handleAck now opId vaultSeq conflictId e) := by
  have hsettled : ∀ (result : ForcePushOpResult) (e : Engine), Concealed P e → Concealed P
      (if e.forceWaiters.contains opId then settleWaiter opId result e else e) := by
    intro result e h
    split
    · exact h.congr ⟨rfl, rfl⟩
    · exact h
  have hanswered : Concealed P (Engine.persistOutbox { e with
      outbox := if truthy conflictId then e.outbox.conflict now opId (conflictId.getD "")
        else e.outbox.ack opId
      index := e.index.setAppliedSeq vaultSeq }) := by
    refine Concealed.persistOutbox ⟨?_, h.outgoing⟩
    dsimp only
    split
    · exact hiddenOutbox_modify h.outbox _ fun _ => rfl
    · exact hiddenOutbox_erase h.outbox _ _
  exact (hsettled _ _ hanswered).flushOutbox now

/-- An encrypting client asks for no room, not even where the file is active. -/
theorem handleReject (h : Concealed P e) (hcfg : Encrypting cfg) (now : Time)
    (opId : Option String) (code : ErrorCode) (message : String) :
    Concealed P (handleReject cfg now opId code message e) := by
  unfold Engine.handleReject
  split
  · exact h
  dsimp only
  split
  · exact h.congr ⟨rfl, rfl⟩
  apply Concealed.flushOutbox
  apply Concealed.persistOutbox
  split
  · apply Concealed.requestResync
    exact h.withOutbox (hiddenOutbox_modify h.outbox _ fun _ => rfl)
  split
  · refine ⟨hiddenOutbox_modify ?_ _ fun _ => rfl, ?_⟩
    · split
      · exact h.outbox
      · rw [Engine.promote, if_pos hcfg.enabled]
        exact h.outbox
    · split
      · exact h.outgoing
      · rw [Engine.promote, if_pos hcfg.enabled]
        exact h.outgoing
  · exact h.withOutbox (hiddenOutbox_removeAndReindex h.outbox _)

theorem finishHandshake (h : Concealed P e) (now : Time) :
    Concealed P (finishHandshake now e) := by
  apply Concealed.flushOutbox
  exact h.congr ⟨rfl, rfl⟩

theorem goOn (h : Concealed P e) (now : Time) (items : List AppliedOp) (more : Bool) :
    Concealed P (goOn now items more e).1 := by
  unfold Engine.goOn
  split
  · unfold finishOps
    split
    · exact h.requestResync
    split
    · exact h.finishHandshake now
    · exact h
  · exact h.requestResync
  · exact h

theorem applyOp (h : Concealed P e) (cfg : ClientConfig) (now : Time) (op : FileOp)
    (contentVV : Option VersionVector) (pathClock : Option PathClock) :
    Concealed P (e.applyOp P cfg now op contentVV pathClock).2 := by
  rw [applyOp_eq_begun]
  have hbegun : Concealed P (beginApply P cfg [] now op contentVV pathClock e).engine :=
    h.congr (sameSending_beginApply cfg [] now op contentVV pathClock e)
  unfold Begun.finish
  dsimp only
  split
  · exact hbegun
  · exact hbegun.congr ⟨rfl, rfl⟩

theorem resumeBatch (h : Concealed P e) (now : Time) (batch : Batch) :
    Concealed P (resumeBatch P cfg now batch e).1 := by
  have happlied := h.applyOp cfg now batch.current.op
    batch.current.resultingClocks.contentVV batch.current.resultingClocks.pathClock
  unfold Engine.resumeBatch
  split
  · next e' heq =>
    rw [heq] at happlied
    exact happlied
  · next e' heq =>
    rw [heq] at happlied
    dsimp only
    apply Concealed.goOn
    exact happlied.congr ⟨rfl, rfl⟩

theorem handleMessage (h : Concealed P e) (hcfg : Encrypting cfg) (now : Time)
    (message : ServerMessage) : Concealed P (handleMessage cfg now message e).1 := by
  cases message with
  | welcome currentSeq =>
    unfold Engine.handleMessage
    dsimp only
    split
    · apply Concealed.requestResync
      exact h.congr ⟨rfl, rfl⟩
    · apply Concealed.finishHandshake
      exact h.congr ⟨rfl, rfl⟩
  | ops ops more => exact h.goOn now _ more
  | opAck opId vaultSeq clocks conflictId => exact h.handleAck now opId vaultSeq conflictId
  | reject opId code message details => exact h.handleReject hcfg now opId code message
  | conflict conflict => exact h.congr ⟨rfl, rfl⟩
  | conflictState conflictId status =>
    unfold Engine.handleMessage
    dsimp only
    split
    · exact h.congr ⟨rfl, rfl⟩
    · exact h
  | error code message => exact h

theorem handleTransportState (h : Concealed P e) (state : TransportState) :
    Concealed P (handleTransportState cfg state e) := by
  unfold Engine.handleTransportState
  dsimp only
  split
  · exact h.congr ⟨rfl, rfl⟩
  cases state with
  | opened =>
    apply Concealed.send
    · exact h.congr ⟨rfl, rfl⟩
    · trivial
  | connecting => exact h.congr ⟨rfl, rfl⟩
  | closed => exact h.congr ⟨rfl, rfl⟩
  | ready => exact h.congr ⟨rfl, rfl⟩

end Concealed

/-! ### The watcher -/

theorem concealed_syncPath {w : VaultWatcher} (h : Concealed P w.engine) (hcfg : Encrypting cfg)
    (now : Time) (opId fileId : Uuid) (path : String) :
    Concealed P (w.syncPath P cfg now opId fileId path).engine := by
  unfold VaultWatcher.syncPath
  split
  · exact h
  · exact h.syncPath hcfg now opId fileId path

theorem concealed_flush {w : VaultWatcher} (h : Concealed P w.engine) (hcfg : Encrypting cfg)
    (now : Time) (fresh : String → Uuid × Uuid) :
    Concealed P (w.flush P cfg now fresh).engine := by
  have hfold : ∀ (paths : List String) (w : VaultWatcher), Concealed P w.engine →
      Concealed P (paths.foldl
        (fun w path => w.syncPath P cfg now (fresh path).1 (fresh path).2 path) w).engine := by
    intro paths
    induction paths with
    | nil => exact fun w h => h
    | cons path paths ih =>
      intro w h
      exact ih _ (concealed_syncPath h hcfg now _ _ path)
  unfold VaultWatcher.flush
  split
  · exact h
  · exact hfold w.queued _ h

theorem concealed_queuePath {w : VaultWatcher} (h : Concealed P w.engine) (path : String) :
    Concealed P (w.queuePath P cfg path).engine := by
  rw [engine_queuePath]
  exact h

theorem concealed_watcherRename {w : VaultWatcher} (h : Concealed P w.engine)
    (hcfg : Encrypting cfg) (now : Time) (opId fileId : Uuid) (oldPath newPath : String) :
    Concealed P (w.handleRename P cfg now opId fileId oldPath newPath).engine := by
  unfold VaultWatcher.handleRename
  split
  · exact h
  · exact h.handleRename hcfg now opId fileId oldPath newPath

theorem concealed_watcherDelete {w : VaultWatcher} (h : Concealed P w.engine) (now : Time)
    (opId : Uuid) (path : String) : Concealed P (w.handleDelete P cfg now opId path).engine := by
  unfold VaultWatcher.handleDelete
  split
  · exact h
  · exact h.handleDelete now opId path

end

/-! ### The plugin -/

/-- What every step keeps: the outbox is hidden, nothing waits to be sent, no file is open in a
session, and no room was asked for. -/
structure Closed {D : Type} (P : Platform) (p : Plugin D) : Prop where
  outbox : HiddenOutbox P p.watcher.engine.outbox
  outgoing : p.watcher.engine.outgoing = []
  yjs : ∀ fileId, p.yjs fileId = {}
  promoted : ∀ fileId, p.promoted fileId = false

section

variable {D : Type} {P : Platform} {cfg : ClientConfig} {p : Plugin D}

namespace Closed

theorem concealed (h : Closed P p) : Concealed P p.watcher.engine where
  outbox := h.outbox
  outgoing := by
    rw [h.outgoing]
    intro message hmem
    simp at hmem

/-- No hidden message asks for a room. -/
theorem promoted_of_hidden {p p' : Plugin D} {messages : List (PluginMessage D)}
    (hsent : p'.sent = p.sent ++ messages) (hhidden : ∀ message ∈ messages, Hidden P message)
    (h : ∀ fileId, p.promoted fileId = false) (fileId : String) : p'.promoted fileId = false := by
  rw [Plugin.promoted, hsent, List.any_append, Bool.or_eq_false_iff]
  refine ⟨h fileId, List.any_eq_false.mpr fun message hmem => ?_⟩
  have hm := hhidden message hmem
  revert hm
  cases message with
  | sync message => cases message <;> simp [Hidden, HiddenMessage]
  | session fileId message => cases message <;> simp [Hidden]
  | resolveConflict => simp

end Closed

/-- A step after which the plugin is as closed as before, and has sent only hidden messages. -/
structure HiddenStep (P : Platform) (p p' : Plugin D) : Prop where
  closed : Closed P p'
  sent : ∃ messages, p'.sent = p.sent ++ messages ∧ ∀ message ∈ messages, Hidden P message

namespace HiddenStep

theorem refl (h : Closed P p) : HiddenStep P p p := ⟨h, [], by simp⟩

theorem withWatcher (h : Closed P p) {w : VaultWatcher} (hw : Concealed P w.engine) :
    HiddenStep P p (p.withWatcher w) := by
  have hhidden : ∀ message ∈ w.engine.outgoing.map PluginMessage.sync,
      Hidden (D := D) P message := by
    intro message hmem
    obtain ⟨message', hmem', rfl⟩ := List.mem_map.mp hmem
    exact hw.outgoing message' hmem'
  refine ⟨⟨hw.outbox, rfl, h.yjs, ?_⟩, _, rfl, hhidden⟩
  exact Closed.promoted_of_hidden rfl hhidden h.promoted

theorem withEngine (h : Closed P p) {e : Engine} (he : Concealed P e) :
    HiddenStep P p (p.withEngine e) := withWatcher h he

theorem trans {p' p'' : Plugin D} (h : HiddenStep P p p') (h' : HiddenStep P p' p'') :
    HiddenStep P p p'' := by
  obtain ⟨messages, hsent, hhidden⟩ := h.sent
  obtain ⟨messages', hsent', hhidden'⟩ := h'.sent
  refine ⟨h'.closed, messages ++ messages', ?_, ?_⟩
  · rw [hsent', hsent, List.append_assoc]
  · intro message hmem
    exact (List.mem_append.mp hmem).elim (hhidden message) (hhidden' message)

/-- The batches and the forced ops do not count. -/
theorem congr {p' : Plugin D} (h : HiddenStep P p p') (batches : List Batch)
    (forced : List FileOp) : HiddenStep P p { p' with batches, forced } :=
  ⟨⟨h.closed.outbox, h.closed.outgoing, h.closed.yjs, h.closed.promoted⟩, h.sent⟩

/-- A file without a session, of which nothing is to be sent. -/
theorem withSession (h : Closed P p) (fileId : String) :
    HiddenStep P p (p.withSession fileId {}) := by
  refine ⟨⟨h.outbox, h.outgoing, ?_, ?_⟩, [], ?_, by simp⟩
  · intro id
    by_cases hid : id = fileId
    · simp [Plugin.withSession, hid]
    · simp [Plugin.withSession, hid, h.yjs]
  · intro id
    simpa [Plugin.withSession, Plugin.promoted] using h.promoted id
  · simp [Plugin.withSession]

theorem startForced (h : Closed P p) {draft : FileOpDraft}
    (hdraft : HiddenContent P draft.inlineText draft.contentHash draft.blobRef) (now : Time)
    (uuid : Uuid) : HiddenStep P p (p.startForced P now uuid draft) :=
  (HiddenStep.withEngine h (h.concealed.pushForced hdraft now uuid)).congr _ _

theorem allHidden {p' : Plugin D} (h : HiddenStep P p p') (hp : AllHidden P p) :
    AllHidden P p' := by
  obtain ⟨messages, hsent, hhidden⟩ := h.sent
  intro message hmem
  rw [hsent, List.mem_append] at hmem
  rcases hmem with hmem | hmem
  · exact hp message hmem
  · exact hhidden message hmem

end HiddenStep

/-- The messages by which conflicts are resolved. -/
theorem closed_send (h : Closed P p) (conflictId : String) (resolvedHash inlineText : Option String)
    (resolvedVV : VersionVector) :
    Closed P (p.send (.resolveConflict conflictId resolvedHash inlineText resolvedVV)) := by
  refine ⟨h.outbox, h.outgoing, h.yjs, fun fileId => ?_⟩
  have hnone := h.promoted fileId
  simp only [Plugin.promoted] at hnone ⊢
  simp [Plugin.send, hnone]

theorem allHidden_send_iff (hp : AllHidden P p) (message : PluginMessage D) :
    AllHidden P (p.send message) ↔ Hidden P message := by
  simp only [AllHidden, Plugin.send, List.mem_append, List.mem_singleton] at hp ⊢
  constructor
  · intro h
    exact h message (Or.inr rfl)
  · rintro h message' (hmem | rfl)
    · exact hp message' hmem
    · exact h

section

variable [SemilatticeSup D] [OrderBot D] {crdt : Crdt D}

/-- Nothing happens to a file that is not open in a session. -/
theorem sessionStep_of_none (ycfg : YjsConfig D) {event : SessionEvent D}
    (h : event.isRoomState = false) : sessionStep ycfg {} event = {} := by
  cases event with
  | roomState => simp [SessionEvent.isRoomState] at h
  | edit update => rfl
  | ack roomEpoch updateId seq => rfl
  | relay roomEpoch seq update => rfl
  | roomClosed roomEpoch reason => rfl
  | roomEpochStale => rfl

/-- Whether an event is the resolution of a conflict. -/
def PluginEvent.isResolution : PluginEvent D → Bool
  | .resolveText .. | .resolveByHash .. => true
  | _ => false

/-- Apart from the resolution of conflicts, an encrypting plugin gives no content away. -/
theorem hiddenStep_of_not_isResolution (hcfg : Encrypting cfg) (h : Closed P p)
    {event : PluginEvent D} (hevent : event.isResolution = false) :
    HiddenStep P p (pluginStep P crdt cfg p event) := by
  have he := h.concealed
  cases event with
  | write path bytes => exact .withEngine h (he.congr ⟨rfl, rfl⟩)
  | queuePath path => exact .withWatcher h (concealed_queuePath he path)
  | flush now fresh => exact .withWatcher h (concealed_flush he hcfg now fresh)
  | rename now opId fileId oldPath newPath =>
    exact .withWatcher h (concealed_watcherRename he hcfg now opId fileId oldPath newPath)
  | delete now opId path => exact .withWatcher h (concealed_watcherDelete he now opId path)
  | forceContent now uuid fileId path type dominateVV remoteExists =>
    unfold pluginStep
    dsimp only
    split
    · exact .refl h
    · next draft hdraft =>
      exact .startForced h (hidden_makeForcedContentOp hcfg hdraft) now uuid
  | forceDelete now uuid fileId type =>
    have hclock : HiddenStep P p (p.withEngine (makeDeleteOp cfg fileId type p.watcher.engine).2) :=
      .withEngine h (he.congr ⟨rfl, rfl⟩)
    exact hclock.trans (.startForced hclock.closed hiddenContent_none now uuid)
  | answerForced now place result =>
    unfold pluginStep Plugin.answerForced
    dsimp only
    split
    · exact .refl h
    · next op _ => exact (HiddenStep.withEngine h (he.endForced now op result)).congr _ _
  | openFile fileId =>
    -- sessions stay closed under encryption, so no room gets an update
    have hnone : (p.yjs fileId).openFile (Plugin.yjsConfig crdt cfg) = {} := by
      simp [h.yjs, YjsSessionManager.openFile, Plugin.yjsConfig, hcfg.enabled]
    unfold pluginStep
    dsimp only
    rw [hnone]
    exact .withSession h fileId
  | leaveFile fileId =>
    unfold pluginStep
    dsimp only
    rw [h.yjs]
    exact .withSession h fileId
  | session fileId event =>
    unfold pluginStep
    dsimp only
    split
    · exact .refl h
    · next hstate =>
      rw [h.promoted fileId, Bool.not_false, Bool.and_true, Bool.not_eq_true] at hstate
      rw [h.yjs, sessionStep_of_none _ hstate]
      exact .withSession h fileId
  | receive now message =>
    exact (HiddenStep.withEngine h (he.handleMessage hcfg now message)).congr _ _
  | resume now place =>
    unfold pluginStep Plugin.resume
    dsimp only
    split
    · exact .refl h
    · next batch _ => exact (HiddenStep.withEngine h (he.resumeBatch now batch)).congr _ _
  | transport state => exact .withEngine h (he.handleTransportState state)
  -- `hevent` leaves the resolutions out
  | resolveText conflict text => simp [PluginEvent.isResolution] at hevent
  | resolveByHash conflict side => simp [PluginEvent.isResolution] at hevent

theorem closed_pluginStep (hcfg : Encrypting cfg) (h : Closed P p) (event : PluginEvent D) :
    Closed P (pluginStep P crdt cfg p event) := by
  by_cases hevent : event.isResolution = true
  · cases event with
    | resolveText conflict text => exact closed_send h _ _ _ _
    | resolveByHash conflict side =>
      unfold pluginStep Plugin.resolveByHash
      dsimp only
      split
      · exact h
      · exact closed_send h _ _ _ _
    | _ => simp [PluginEvent.isResolution] at hevent
  · exact (hiddenStep_of_not_isResolution hcfg h (by simpa using hevent)).closed

/-- A step gives nothing away exactly where it does not resolve a conflict so. -/
theorem allHidden_pluginStep_iff (hcfg : Encrypting cfg) (h : Closed P p) (hp : AllHidden P p)
    (event : PluginEvent D) :
    AllHidden P (pluginStep P crdt cfg p event) ↔ KeepsHidden P event := by
  have hother : event.isResolution = false → AllHidden P (pluginStep P crdt cfg p event) :=
    fun hevent => (hiddenStep_of_not_isResolution hcfg h hevent).allHidden hp
  cases event with
  | resolveText conflict text =>
    refine (allHidden_send_iff hp _).trans (iff_of_false ?_ id)
    intro hhidden
    have htext := hhidden.inlineText
    simp at htext
  | resolveByHash conflict side =>
    unfold pluginStep Plugin.resolveByHash KeepsHidden
    dsimp only
    split
    · next hnone => exact iff_of_true hp fun hsome => by simp [hsome] at hnone
    · next hsome =>
      rw [allHidden_send_iff hp, imp_iff_right (by simpa using hsome)]
      exact ⟨HiddenContent.contentHash, fun hhash => ⟨rfl, hhash, fun _ hmem => by simp at hmem⟩⟩
  | _ => exact iff_of_true (hother rfl) trivial

/-- **Nothing the plugin sends gives content away, in any state of a run, exactly where no
conflict is resolved by a text or by the hash of something else than an envelope**, if the
plugin starts without sessions and with an outbox that an encrypting client filled. -/
theorem hidden_iff_keepsHidden (P : Platform) (crdt : Crdt D) {cfg : ClientConfig}
    (hcfg : Encrypting cfg) {p : Plugin D} (hp : StartsEncrypted P p)
    (events : List (PluginEvent D)) :
    Run.Throughout (pluginStep P crdt cfg) (AllHidden P) p events
      ↔ Run.EachStep (pluginStep P crdt cfg) (fun _ event => KeepsHidden P event) p events := by
  have hclosed : Closed P p :=
    ⟨hp.outbox, hp.outgoing, hp.yjs, fun fileId => by simp [Plugin.promoted, hp.sent]⟩
  have hhidden : AllHidden P p := by
    intro message hmem
    simp [hp.sent] at hmem
  exact Run.throughout_iff_eachStep (fun p event h => closed_pluginStep hcfg h event)
    (fun p event h hp => allHidden_pluginStep_iff hcfg h hp event) events hclosed hhidden

end

end

/-! ### A merged text -/

/-- What encryption makes of a plaintext here. -/
def sampleParts (plaintext : Bytes) : EncryptedBlobParts where
  nonce := List.replicate 12 7
  tag := List.replicate 16 9
  ciphertext := plaintext.map fun byte => byte ^^^ 0x5a
  nonce_length := rfl
  tag_length := rfl

/-- A client with encryption enabled. -/
def sampleEncrypting : ClientConfig :=
  { sampleConfig with
    deviceId := "d1", encryptionEnabled := true
    encryptForStorage := fun plaintext => serializeEncryptedBlob (sampleParts plaintext) }

/-- The plugin when it starts. -/
def samplePlugin : Plugin (Finset Write) where
  watcher :=
    { engine :=
        { index := { device := { deviceId := "d1", vaultId := some "v" } }
          outbox := OutboxManager.create "d1" 1 [] } }

/-- A conflict of a note, both sides of which are envelopes. -/
def sampleConflict : ConflictRecord where
  conflictId := "c"
  vaultId := "v"
  fileId := "f1"
  kind := .content
  baseHash := none
  oursHash := some (contentHash samplePlatform
    (serializeEncryptedBlob (sampleParts (encodeText "one"))))
  theirsHash := some (contentHash samplePlatform
    (serializeEncryptedBlob (sampleParts (encodeText "two"))))
  oursVV := none
  theirsVV := none
  status := .opened

/-- A note is written and sent, opened, and its conflict resolved by choosing a side. -/
def sampleEncryptedRun : List (PluginEvent (Finset Write)) :=
  [.receive 1 (.welcome 0), .write "a.md" (encodeText "one"), .queuePath "a.md",
    .flush 2 fun _ => (sampleId 1, sampleId 2), .openFile "f1",
    .resolveByHash sampleConflict .theirs]

theorem hidden_encryptedRun :
    Run.Throughout (pluginStep samplePlatform writes sampleEncrypting) (AllHidden samplePlatform)
      samplePlugin sampleEncryptedRun := by
  have hcfg : Encrypting sampleEncrypting := ⟨rfl, fun plaintext => ⟨_, rfl⟩⟩
  have hstart : StartsEncrypted samplePlatform samplePlugin :=
    ⟨by simp [samplePlugin, OutboxManager.create], rfl, fun _ => rfl, rfl⟩
  refine (hidden_iff_keepsHidden samplePlatform writes hcfg hstart sampleEncryptedRun).mpr
    ⟨trivial, trivial, trivial, trivial, trivial, ?_, trivial⟩
  rintro - hash ⟨⟩
  exact ⟨_, rfl⟩

/-- **The text a conflict is resolved by is sent as it is**, although both sides are encrypted. -/
theorem not_hidden_mergedText :
    ¬ Run.Throughout (pluginStep samplePlatform writes sampleEncrypting)
      (AllHidden samplePlatform) samplePlugin [.resolveText sampleConflict "one two"] := by
  intro h
  have htext := (h.final _ (List.mem_singleton.mpr rfl)).inlineText
  simp at htext

end ObsidianSync
