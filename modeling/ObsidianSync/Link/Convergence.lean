import ObsidianSync.Link.RoomCalls

/-!
# The sessions of a note converge

A participant's session holds what the room holds, but for what is on its way between them.  So
wherever nothing is on its way the participants agree.  That holds from the first promotion on and
through all incarnations of the room, as long as no socket is behind when something is sent on it,
the updates of participants are admitted, a note is not opened a second time while the answer to
the first is on its way, and nothing is written to a document that is not sent.

## Main results

* `together_collabStep` — a steady step keeps what the room and the sessions have of each other.
* `converges_run` — **in every run of steady steps the sessions of a note converge.**
-/

namespace ObsidianSync

section

variable {D : Type} [SemilatticeSup D] [OrderBot D] {cfg : YjsConfig D} {room : RoomConfig D}

/-! ### A message is handled -/

section

variable {r r' : Room D} {p : Peer D} {deviceId : String} {message : YjsMessage D}
  {outgoing : List (YjsMessage D)} {more : List (RoomMessage D)}

omit [SemilatticeSup D] [OrderBot D] in
theorem states_notice (hmore : ∀ each ∈ more, each.relayed = .notice) :
    ∀ each ∈ more.map RoomMessage.relayed, each.isState = false := by
  intro each heach
  obtain ⟨sent, hsent, rfl⟩ := List.mem_map.mp heach
  exact (isStale_of_notice (hmore sent hsent)).1

/-- A message of a device that is not a member, and is none after it. -/
theorem InTouch.handledAway (h : InTouch r deviceId p)
    (hout : p.manager.outgoing = message :: outgoing) (haway : ¬ p.Member r deviceId)
    (haway' : ¬ Peer.Member { p with manager := { p.manager with outgoing } } r' deviceId)
    (hhas : r'.Has deviceId →
      r.Has deviceId ∧ r'.runtime.persisted.epoch = r.runtime.persisted.epoch)
    (hmore : ∀ each ∈ more, each.relayed = .notice) :
    InTouch r' deviceId
      { manager := { p.manager with outgoing }, arriving := p.arriving ++ more } := by
  have hqueued : Queued r' deviceId
      { manager := { p.manager with outgoing }, arriving := p.arriving ++ more } :=
    (h.toQueued.tail hout).post (fun each heach => (isStale_of_notice (hmore each heach)).1)
      (fun each heach => (isStale_of_notice (hmore each heach)).2) hhas
  refine ⟨hqueued, fun hmember => absurd hmember haway', fun _ => ?_⟩
  rw [messages_append]
  exact (h.absent haway).append (states_notice hmore)

omit [SemilatticeSup D] [OrderBot D] in
theorem Queued.not_member_of_leave (hout : p.manager.outgoing = message :: outgoing)
    (hleave : message.isLeave = true) : ¬ p.Member r deviceId := by
  intro hmember
  have hstays := hmember.2 message (by rw [hout]; exact List.mem_cons_self)
  rw [hleave] at hstays
  exact absurd hstays Bool.noConfusion

theorem InTouch.not_member_of_promote (h : InTouch r deviceId p)
    (hpromote : ∃ message ∈ p.manager.outgoing, message.isPromote = true) :
    ¬ p.Member r deviceId := by
  obtain ⟨hsession, hstates⟩ := h.of_promote hpromote
  exact h.not_member hsession hstates

/-- A promotion is answered. -/
theorem InTouch.promoted (h : InTouch r deviceId p)
    (hout : p.manager.outgoing = .promote :: outgoing) (hhas : r'.Has deviceId) :
    InTouch r' deviceId
      { manager := { p.manager with outgoing }, arriving := p.arriving ++ [r'.roomState] } := by
  have hpromote : ∃ message ∈ p.manager.outgoing, message.isPromote = true :=
    ⟨.promote, by rw [hout]; exact List.mem_cons_self, rfl⟩
  obtain ⟨hsession, hstates⟩ := h.of_promote hpromote
  -- A promotion is sent last, so nothing waits behind it.
  have hlast : outgoing = [] := by
    cases outgoing with
    | nil => rfl
    | cons next rest =>
      have hpromotes := h.promotesLast .promote (by rw [hout]; exact List.mem_cons_self)
      exact absurd hpromotes Bool.noConfusion
  subst hlast
  have hnone : ∀ each ∈ ([] : List (YjsMessage D)), False := fun _ heach =>
    absurd heach List.not_mem_nil
  refine ⟨⟨?_, fun _ heach => (hnone _ heach).elim, fun ⟨_, heach, _⟩ => (hnone _ heach).elim,
    fun _ _ heach => (hnone _ heach).elim, fun _ heach => (hnone _ heach).elim, ?_⟩, ?_, ?_⟩
  · have hstateless : p.messages.countP Relay.Message.isState = 0 :=
      List.countP_eq_zero.mpr fun each heach => Bool.eq_false_iff.mp (hstates each heach)
    unfold Peer.openings
    rw [messages_append, List.countP_append]
    show (if p.manager.session.isSome then 1 else 0) + 0 +
      (p.messages.countP Relay.Message.isState + 1) ≤ 1
    rw [hsession, hstateless]
    exact le_refl 1
  · intro each heach
    rcases List.mem_append.mp heach with hbefore | hstate
    · exact h.notStale each hbefore
    · rw [List.mem_singleton.mp hstate]
      rfl
  · intro _
    rw [messages_append]
    show Relay.Follows _ (r'.runtime.doc ⊔ ⊥) _ p.replica (p.messages ++ [.state _ r'.runtime.doc])
    rw [sup_bot_eq]
    exact (h.absent (h.not_member_of_promote hpromote)).state _ _ _
  · exact fun haway => absurd ⟨hhas, fun _ heach => (hnone _ heach).elim⟩ haway

/-- An update is acknowledged. -/
theorem InTouch.acknowledged (h : InTouch r deviceId p) (hhosts : Hosts r)
    {roomEpoch updateId : ℕ} {update : D}
    (hout : p.manager.outgoing = .yjsUpdate roomEpoch updateId update :: outgoing)
    {outcome : Outcome D Unit} (hmerges : Merges r deviceId updateId update outcome)
    (hhas : r.Has deviceId) :
    InTouch outcome.room deviceId
      { manager := { p.manager with outgoing }
        arriving := p.arriving ++
          [.yjsAck r.runtime.persisted.epoch updateId r.runtime.persisted.nextSeq] } := by
  have hqueued : Queued outcome.room deviceId
      { manager := { p.manager with outgoing }
        arriving := p.arriving ++
          [.yjsAck r.runtime.persisted.epoch updateId r.runtime.persisted.nextSeq] } :=
    (h.toQueued.tail hout).post (fun each heach => by rw [List.mem_singleton.mp heach]; rfl)
      (fun each heach => by rw [List.mem_singleton.mp heach]; rfl)
      (fun _ => ⟨hhas, hmerges.goesOn.epoch⟩)
  have hmember : p.Member r deviceId ↔ ∀ each ∈ outgoing, each.isLeave = false := by
    refine (and_iff_right hhas).trans ?_
    rw [hout, List.forall_mem_cons]
    exact and_iff_right rfl
  refine ⟨hqueued, fun hstays => ?_, fun haway => ?_⟩
  · -- What was on its way to the room is in the room now.
    have hpred : r.runtime.persisted.nextSeq - 1 + 1 = r.runtime.persisted.nextSeq :=
      Nat.sub_add_cancel hhosts.nextSeq
    have hunsent : p.unsent = update ⊔ Peer.unsent
        { manager := { p.manager with outgoing }, arriving := p.arriving } := by
      unfold Peer.unsent
      rw [hout]
      rfl
    have hfollows := (h.follows (hmember.mpr hstays.2)).ack
    rw [hunsent, ← sup_assoc, ← hmerges.doc, hpred] at hfollows
    rw [messages_append, hmerges.goesOn.epoch, hmerges.nextSeq, Nat.add_sub_cancel]
    exact hfollows
  · rw [messages_append]
    refine (h.absent fun hp => haway ?_).append fun each heach => ?_
    · exact ⟨(hmerges.goesOn.has deviceId).mpr hhas, hmember.mp hp⟩
    · rw [List.mem_singleton.mp heach]
      rfl

end

section

variable {c : Collaboration D} {busy : RoomSink → Bool} {now clientID : ℕ}
  {deviceId userId : String} {message : YjsMessage D} {outgoing : List (YjsMessage D)}

omit [SemilatticeSup D] [OrderBot D] in
theorem peers_onDevice_self (call : YjsSessionManager D → YjsSessionManager D) :
    (c.onDevice deviceId call).peers deviceId
      = { c.peers deviceId with manager := call (c.peers deviceId).manager } :=
  Function.update_self ..

omit [SemilatticeSup D] [OrderBot D] in
theorem peers_onDevice_of_ne {other : String} (hne : other ≠ deviceId)
    (call : YjsSessionManager D → YjsSessionManager D) :
    (c.onDevice deviceId call).peers other = c.peers other :=
  Function.update_of_ne hne ..

omit [SemilatticeSup D] [OrderBot D] in
theorem sink_of_mem_answer {α : Type} {outcome : Outcome D α} {reply : α → List (RoomMessage D)}
    {each : RoomSink × RoomMessage D} (h : each ∈ outcome.answer deviceId reply) :
    each.1 = sinkOf deviceId := by
  unfold Outcome.answer at h
  split at h
  · obtain ⟨message, -, rfl⟩ := List.mem_map.mp h
    rfl
  · rw [List.mem_singleton.mp h]

/-- A call that is for the device, and changes nothing for the others. -/
theorem Together.calledFor {α : Type} {outcome : Outcome D α} {reply : α → List (RoomMessage D)}
    (h : Together c) (hhosts : Hosts outcome.room) (hsent : outcome.sent = [])
    (hothers : ∀ other, other ≠ deviceId → (outcome.room.Has other ↔ c.room.Has other))
    (hsame : ∀ other, c.room.Has other → c.room.SameDoc outcome.room)
    (hself : InTouch outcome.room deviceId
      { manager := { (c.peers deviceId).manager with outgoing }
        arriving := (c.peers deviceId).arriving ++
          mail deviceId ((outcome.answer deviceId reply).filter fun each => !busy each.1) }) :
    Together ((c.onDevice deviceId fun manager => { manager with outgoing }).calledFor busy deviceId
      outcome reply) := by
  refine ⟨hhosts, fun other => ?_⟩
  unfold Collaboration.calledFor Collaboration.called Collaboration.post
  dsimp only
  rw [hsent, List.filter_nil]
  by_cases hid : other = deviceId
  · subst hid
    rw [peers_onDevice_self]
    dsimp only
    rw [mail_nil, List.append_nil]
    exact hself
  · rw [peers_onDevice_of_ne hid, List.append_assoc]
    refine (h.inTouch other).noticed (hothers other hid) (hsame other) fun each heach => ?_
    obtain ⟨sink, hanswer, -, hsink⟩ := mem_mail.mp heach
    have hanswered : sink = sinkOf deviceId := sink_of_mem_answer hanswer
    rw [hanswered] at hsink
    exact absurd hsink.symm hid

omit [SemilatticeSup D] [OrderBot D] in
theorem notice_of_mem_mail {sent : List (RoomSink × RoomMessage D)}
    (h : ∀ each ∈ sent, each.2.relayed = .notice) :
    ∀ each ∈ mail deviceId (sent.filter fun message => !busy message.1),
      each.relayed = .notice := by
  intro each heach
  obtain ⟨sink, hsent, -⟩ := mem_mail.mp heach
  exact h _ hsent

/-- A promotion is handled. -/
theorem together_promote (h : Together c) (hready : busy (sinkOf deviceId) = false)
    (hout : (c.peers deviceId).manager.outgoing = .promote :: outgoing) :
    Together ((c.onDevice deviceId fun manager => { manager with outgoing }).calledFor busy deviceId
      (c.room.promote room now clientID deviceId userId 0) fun roomState => [roomState]) := by
  have hself := h.inTouch deviceId
  rcases promote_opens h.hosts with hdeclines | hopens
  · refine h.calledFor hdeclines.hosts hdeclines.sent (fun other _ => hdeclines.has other)
      hdeclines.same ?_
    have haway : ¬ (c.peers deviceId).Member c.room deviceId :=
      hself.not_member_of_promote ⟨.promote, by rw [hout]; exact List.mem_cons_self, rfl⟩
    refine hself.handledAway hout haway ?_ (fun hhas => ?_) (notice_of_mem_mail ?_)
    · rintro ⟨hhas, hstays⟩
      refine haway ⟨(hdeclines.has deviceId).mp hhas, ?_⟩
      rw [hout, List.forall_mem_cons]
      exact ⟨rfl, hstays⟩
    · have hbefore := (hdeclines.has deviceId).mp hhas
      exact ⟨hbefore, (hdeclines.same deviceId hbefore).epoch⟩
    · obtain ⟨e, herror⟩ := hdeclines.result
      intro each heach
      unfold Outcome.answer at heach
      rw [herror] at heach
      rw [List.mem_singleton.mp heach]
      rfl
  · refine h.calledFor hopens.hosts hopens.sent hopens.others hopens.same ?_
    have hmail : mail deviceId (((c.room.promote room now clientID deviceId userId 0).answer
        deviceId fun roomState => [roomState]).filter fun each => !busy each.1)
        = [(c.room.promote room now clientID deviceId userId 0).room.roomState] := by
      unfold Outcome.answer
      rw [hopens.result]
      dsimp only
      rw [List.map_singleton, filter_of_ready hready]
      simp [mail, sinkOf]
    rw [hmail]
    exact hself.promoted hout hopens.has

/-- A device leaves. -/
theorem together_leave (h : Together c) {roomEpoch : ℕ}
    (hout : (c.peers deviceId).manager.outgoing = .leaveRoom roomEpoch :: outgoing) :
    Together ((c.onDevice deviceId fun manager => { manager with outgoing }).calledFor busy deviceId
      (c.room.leave deviceId roomEpoch) fun _ => []) := by
  have hself := h.inTouch deviceId
  have hleaves : LeavesRoom c.room deviceId (c.room.leave deviceId roomEpoch) := by
    refine leave_leaves h.hosts fun hhas => hself.current hhas (.leaveRoom roomEpoch) ?_ _ rfl
    rw [hout]
    exact List.mem_cons_self
  refine h.calledFor hleaves.hosts hleaves.sent hleaves.others (fun _ _ => hleaves.same) ?_
  exact hself.handledAway hout (Queued.not_member_of_leave hout rfl)
    (fun hmember => hleaves.gone hmember.1) (fun hhas => absurd hhas hleaves.gone)
    (notice_of_mem_mail (notice_of_mem_answer fun _ _ heach => absurd heach List.not_mem_nil))

/-- An update is merged. -/
theorem Together.merged (h : Together c) (hbehind : c.room.NoneBehind busy)
    (hhas : c.room.Has deviceId) {roomEpoch updateId : ℕ} {update : D} {outcome : Outcome D Unit}
    (hout : (c.peers deviceId).manager.outgoing = .yjsUpdate roomEpoch updateId update :: outgoing)
    (hmerges : Merges c.room deviceId updateId update outcome) :
    Together ((c.onDevice deviceId fun manager => { manager with outgoing }).calledFor busy deviceId
      outcome fun _ => []) := by
  obtain ⟨sink, relayed, hseat, hsent, hannounces⟩ := hmerges.sent
  have hsink : sink.deviceId = deviceId := h.hosts.sinks _ _ hseat
  have hanswer : outcome.answer deviceId (fun _ => []) = [] := by
    unfold Outcome.answer
    rw [hmerges.result]
    rfl
  have hnextSeq : 0 < outcome.room.runtime.persisted.nextSeq := by
    rw [hmerges.nextSeq]
    exact Nat.succ_pos _
  have hhosts : Hosts outcome.room := h.hosts.goesOn hmerges.goesOn hnextSeq
  refine ⟨hhosts, fun other => ?_⟩
  unfold Collaboration.calledFor Collaboration.called Collaboration.post
  dsimp only
  rw [hanswer, hsent, List.filter_nil]
  show InTouch _ other { manager := _, arriving := _ ++ mail other [] }
  rw [mail_nil, List.append_nil, filter_of_ready (hbehind _ _ hseat)]
  -- The device is sent the acknowledgement only, the others the update only.
  by_cases hid : other = deviceId
  · subst hid
    have hnone : mail other (relayed.filter fun message => !busy message.1) = [] := by
      refine List.eq_nil_iff_forall_not_mem.mpr fun each heach => ?_
      obtain ⟨other', hsent', -, hother⟩ := mem_mail.mp heach
      exact hannounces.none other rfl _ hsent' hother
    rw [mail_cons, if_pos hsink, hnone, peers_onDevice_self]
    exact (h.inTouch other).acknowledged h.hosts hout hmerges hhas
  · have hother : ¬ sink.deviceId = other := fun heq => hid (heq.symm.trans hsink)
    obtain ⟨heq, hne⟩ := mail_of_announces h.hosts hbehind hannounces other
    rw [mail_cons, if_neg hother, peers_onDevice_of_ne hid]
    exact (h.inTouch other).updated h.hosts (hmerges.goesOn.has other) hmerges.goesOn.epoch
      hmerges.doc hmerges.nextSeq heq fun hthere => hne hthere fun hsame =>
        hid (Option.some.inj hsame)

/-- An update is handled. -/
theorem together_update (h : Together c) (hbehind : c.room.NoneBehind busy)
    {roomEpoch updateId : ℕ} {update : D}
    (hout : (c.peers deviceId).manager.outgoing = .yjsUpdate roomEpoch updateId update :: outgoing)
    (hadmits : c.room.Has deviceId → Admits room c.room now deviceId userId update) :
    Together ((c.onDevice deviceId fun manager => { manager with outgoing }).calledFor busy deviceId
      (c.room.handleUpdate room busy now deviceId userId roomEpoch updateId update)
      fun _ => []) := by
  have hself := h.inTouch deviceId
  by_cases hhas : c.room.Has deviceId
  · have hcurrent : roomEpoch = c.room.runtime.persisted.epoch := by
      refine hself.current hhas (.yjsUpdate roomEpoch updateId update) ?_ _ rfl
      rw [hout]
      exact List.mem_cons_self
    exact h.merged hbehind hhas hout
      (handleUpdate_merges h.hosts hbehind hhas updateId hcurrent (hadmits hhas))
  · obtain ⟨hroom, hsent⟩ := handleUpdate_of_not_has hhas room busy now userId roomEpoch updateId
      update
    refine h.calledFor ?_ hsent ?_ ?_ ?_ <;> rw [hroom]
    · exact h.hosts
    · exact fun _ _ => Iff.rfl
    · exact fun _ _ => ⟨rfl, rfl, rfl⟩
    · exact hself.handledAway hout (fun hmember => hhas hmember.1) (fun hmember => hhas hmember.1)
        (fun hnow => absurd hnow hhas)
        (notice_of_mem_mail (notice_of_mem_answer fun _ _ heach => absurd heach List.not_mem_nil))

theorem together_handleMessage (h : Together c) (hbehind : c.room.NoneBehind busy)
    (hready : busy (sinkOf deviceId) = false)
    (hadmits : ∀ message ∈ (c.peers deviceId).manager.outgoing.head?, ∀ update ∈ message.update,
      c.room.Has deviceId → Admits room c.room now deviceId userId update) :
    Together (c.handleMessage room busy now clientID deviceId userId) := by
  unfold Collaboration.handleMessage
  split
  · exact h
  · next message outgoing hout =>
    cases message with
    | promote => exact together_promote h hready hout
    | leaveRoom roomEpoch => exact together_leave h hout
    | yjsUpdate roomEpoch updateId update =>
      exact together_update h hbehind hout (hadmits _ (by rw [hout]; rfl) update rfl)
    | yjsSync roomEpoch stateVector =>
      have hasks := (h.inTouch deviceId).noGap (.yjsSync roomEpoch stateVector)
        (by rw [hout]; exact List.mem_cons_self)
      exact absurd hasks Bool.noConfusion

end

/-! ### On a device -/

section

variable {r : Room D} {p : Peer D} {deviceId : String} {session : YjsSession D} {clientID : ℕ}

theorem countP_of_forall {α : Type} {q : α → Bool} {l : List α} (h : ∀ x ∈ l, q x = false) :
    l.countP q = 0 :=
  List.countP_eq_zero.mpr fun x hx => Bool.eq_false_iff.mp (h x hx)

omit [SemilatticeSup D] [OrderBot D] in
/-- A message is sent last. -/
theorem Queued.send (h : Queued r deviceId p) {message : YjsMessage D}
    (next : Option (YjsSession D))
    (hopenings : (if next.isSome then 1 else 0) + (if message.isPromote then 1 else 0) +
      p.manager.outgoing.countP YjsMessage.isPromote +
      p.messages.countP Relay.Message.isState ≤ 1)
    (hpromotes : ∀ each ∈ p.manager.outgoing, each.isPromote = false)
    (hleaving : (∃ each ∈ p.manager.outgoing ++ [message], each.isLeave = true) →
      next = none ∧ ∀ each ∈ p.messages, each.isState = false)
    (hcurrent : r.Has deviceId → ∀ epoch ∈ message.epoch, epoch = r.runtime.persisted.epoch)
    (hsync : message.isSync = false) :
    Queued r deviceId
      { p with manager := { session := next, outgoing := p.manager.outgoing ++ [message] } } := by
  refine ⟨?_, ?_, hleaving, ?_, ?_, h.notStale⟩
  · show (if next.isSome then 1 else 0) +
      (p.manager.outgoing ++ [message]).countP YjsMessage.isPromote +
      p.messages.countP Relay.Message.isState ≤ 1
    rw [List.countP_append, List.countP_singleton]
    omega
  · show ∀ each ∈ (p.manager.outgoing ++ [message]).dropLast, each.isPromote = false
    rw [List.dropLast_concat]
    exact hpromotes
  · intro hhas each heach
    rcases List.mem_append.mp heach with hbefore | hlast
    · exact h.current hhas each hbefore
    · rw [List.mem_singleton.mp hlast]
      exact hcurrent hhas
  · intro each heach
    rcases List.mem_append.mp heach with hbefore | hlast
    · exact h.noGap each hbefore
    · rw [List.mem_singleton.mp hlast]
      exact hsync

/-- The file is opened. -/
theorem InTouch.openFile (h : InTouch r deviceId p)
    (hsteady : p.manager.session = none → p.NotOpening) :
    InTouch r deviceId { p with manager := p.manager.openFile cfg } := by
  unfold YjsSessionManager.openFile
  split
  · exact h
  next hopens =>
  have hsession : p.manager.session = none := by
    rw [Bool.or_eq_true, not_or] at hopens
    exact Option.not_isSome_iff_eq_none.mp hopens.1
  obtain ⟨hpromotes, hstates⟩ := hsteady hsession
  have hstateless : ∀ each ∈ p.messages, each.isState = false := by
    intro each heach
    obtain ⟨message, hmessage, rfl⟩ := List.mem_map.mp heach
    cases message with
    | roomState roomEpoch yjsSnapshot => exact absurd rfl (hstates _ hmessage roomEpoch yjsSnapshot)
    | _ => rfl
  have hqueued : Queued r deviceId { p with manager := p.manager.send .promote } := by
    refine h.toQueued.send p.manager.session ?_ hpromotes ?_ ?_ rfl
    · rw [hsession, countP_of_forall hpromotes, countP_of_forall hstateless]
      exact le_refl 1
    · rintro ⟨each, heach, hleaves⟩
      rcases List.mem_append.mp heach with hbefore | hlast
      · exact h.leaving ⟨each, hbefore, hleaves⟩
      · rw [List.mem_singleton.mp hlast] at hleaves
        exact absurd hleaves Bool.noConfusion
    · rintro - epoch ⟨⟩
  -- The promotion makes it a member when it is handled, and not before.
  have haway := h.not_member hsession hstateless
  refine ⟨hqueued, fun hmember => ?_, fun _ => h.absent haway⟩
  exact absurd ⟨hmember.1, fun each heach => hmember.2 each (List.mem_append_left _ heach)⟩ haway

/-- The file is left. -/
theorem InTouch.leaveFile (h : InTouch r deviceId p) :
    InTouch r deviceId { p with manager := p.manager.leaveFile } := by
  unfold YjsSessionManager.leaveFile
  cases hsession : p.manager.session with
  | none => exact h
  | some session =>
    have hstates := h.stateless hsession
    have hleave : ∃ each ∈ p.manager.outgoing ++ [YjsMessage.leaveRoom session.roomEpoch],
        each.isLeave = true := ⟨.leaveRoom session.roomEpoch, by simp, rfl⟩
    refine ⟨h.toQueued.send none ?_ (h.notOpening hsession) (fun _ => ⟨rfl, hstates⟩) ?_ rfl,
      ?_, ?_⟩
    · rw [countP_of_forall (h.notOpening hsession), countP_of_forall hstates]
      exact Nat.zero_le _
    · rintro hhas epoch ⟨⟩
      exact (h.member_of_session hhas hsession).2
    · intro hmember
      obtain ⟨each, heach, hleaves⟩ := hleave
      have hstays := hmember.2 each heach
      rw [hleaves] at hstays
      exact absurd hstays Bool.noConfusion
    · exact fun _ => Relay.absent_none hstates

/-- The document is edited. -/
theorem InTouch.edit (h : InTouch r deviceId p) (update : D) :
    InTouch r deviceId { p with manager := p.manager.edit update } := by
  unfold YjsSessionManager.edit
  cases hsession : p.manager.session with
  | none => exact h
  | some session =>
    have hstates := h.stateless hsession
    have hnone : ¬ ∃ each ∈ p.manager.outgoing, each.isLeave = true := by
      intro hleave
      have hgone := (h.leaving hleave).1
      rw [hsession] at hgone
      exact absurd hgone (Option.some_ne_none _)
    have hqueued : Queued r deviceId { p with
        manager := YjsSessionManager.send
          { p.manager with session := some (session.localUpdate update) }
          (session.updateMessage update) } := by
      refine h.toQueued.send (some (session.localUpdate update)) ?_ (h.notOpening hsession) ?_ ?_
        rfl
      · rw [countP_of_forall (h.notOpening hsession), countP_of_forall hstates]
        exact le_refl 1
      · rintro ⟨each, heach, hleaves⟩
        rcases List.mem_append.mp heach with hbefore | hlast
        · exact absurd ⟨each, hbefore, hleaves⟩ hnone
        · rw [List.mem_singleton.mp hlast] at hleaves
          exact absurd hleaves Bool.noConfusion
      · rintro hhas epoch ⟨⟩
        exact (h.member_of_session hhas hsession).2
    have hreplica : p.replica.map (Relay.Replica.merge update)
        = some (session.localUpdate update).replica := by
      rw [Peer.replica, hsession, replica_localUpdate]
      rfl
    refine ⟨hqueued, fun hmember => ?_, fun haway => ?_⟩
    · have hbefore : p.Member r deviceId :=
        ⟨hmember.1, fun each heach => hmember.2 each (List.mem_append_left _ heach)⟩
      -- It is merged here before what arrives, and in the room after all that it has.
      have hfollows := (h.follows hbefore).merge hstates update
      rw [hreplica, sup_assoc] at hfollows
      rw [unsent_send]
      exact hfollows
    · have hbefore : ¬ p.Member r deviceId := by
        intro hmember
        refine haway ⟨hmember.1, fun each heach => ?_⟩
        rcases List.mem_append.mp heach with hearlier | hlast
        · exact hmember.2 each hearlier
        · rw [List.mem_singleton.mp hlast]
          rfl
      have habsent := (h.absent hbefore).merge hstates update
      rw [hreplica] at habsent
      exact habsent

/-- A message arrives. -/
theorem InTouch.arrive (h : InTouch r deviceId p) (clientID : ℕ) :
    InTouch r deviceId (p.arrive cfg clientID) := by
  unfold Peer.arrive
  split
  · exact h
  next message arriving harriving =>
  have hmessages : p.messages = message.relayed :: arriving.map RoomMessage.relayed := by
    rw [Peer.messages, harriving, List.map_cons]
  have hstate : p.manager.session = none ∨ message.relayed.isState = false := by
    cases hsession : p.manager.session with
    | none => exact Or.inl rfl
    | some session =>
      refine Or.inr (h.stateless hsession _ ?_)
      rw [hmessages]
      exact List.mem_cons_self
  have hinOrder : Relay.InOrder p.replica p.messages := by
    by_cases hmember : p.Member r deviceId
    · exact (h.follows hmember).inOrder
    · exact (h.absent hmember).inOrder
  rw [hmessages] at hinOrder
  have hstale : message.isStale = false := by
    refine h.notStale message ?_
    rw [harriving]
    exact List.mem_cons_self
  -- A session that finds no gap asks for nothing.
  have hout : (p.manager.receive cfg clientID message).outgoing = p.manager.outgoing :=
    outgoing_receive hstate hinOrder.1 hstale
  have hreplica : Peer.replica { manager := p.manager.receive cfg clientID message, arriving }
      = Relay.take p.replica message.relayed := replica_receive hstate
  have hisSome : (p.manager.receive cfg clientID message).session.isSome
      = (Relay.take p.replica message.relayed).isSome := by
    rw [← hreplica, Peer.replica, Option.isSome_map]
  have hunsent : Peer.unsent { manager := p.manager.receive cfg clientID message, arriving }
      = p.unsent := by
    unfold Peer.unsent
    rw [hout]
  have hmember :
      Peer.Member { manager := p.manager.receive cfg clientID message, arriving } r deviceId ↔
        p.Member r deviceId := by
    unfold Peer.Member
    rw [hout]
  refine ⟨⟨?_, ?_, ?_, ?_, ?_, ?_⟩, fun hstays => ?_, fun haway => ?_⟩
  · have hbefore := h.openings
    unfold Peer.openings at hbefore ⊢
    rw [hmessages, List.countP_cons] at hbefore
    show (if (p.manager.receive cfg clientID message).session.isSome then 1 else 0) +
      (p.manager.receive cfg clientID message).outgoing.countP YjsMessage.isPromote +
      (arriving.map RoomMessage.relayed).countP Relay.Message.isState ≤ 1
    have hisSome' : p.replica.isSome = p.manager.session.isSome := Option.isSome_map
    have htake := Relay.isSome_take p.replica message.relayed
    rw [hout, hisSome]
    rw [hisSome'] at htake
    omega
  · show ∀ each ∈ (p.manager.receive cfg clientID message).outgoing.dropLast, each.isPromote = false
    rw [hout]
    exact h.promotesLast
  · rintro ⟨each, heach, hleaves⟩
    obtain ⟨hsession, hstates⟩ := h.leaving ⟨each, hout ▸ heach, hleaves⟩
    rw [hmessages, List.forall_mem_cons] at hstates
    refine ⟨?_, hstates.2⟩
    have hnone : p.replica = none := by rw [Peer.replica, hsession, Option.map_none]
    rw [hnone, Relay.take_none hstates.1] at hisSome
    exact Option.isNone_iff_eq_none.mp (Option.isSome_eq_false_iff.mp hisSome)
  · show r.Has deviceId → ∀ each ∈ (p.manager.receive cfg clientID message).outgoing,
      ∀ epoch ∈ each.epoch, epoch = r.runtime.persisted.epoch
    rw [hout]
    exact h.current
  · show ∀ each ∈ (p.manager.receive cfg clientID message).outgoing, each.isSync = false
    rw [hout]
    exact h.noGap
  · intro each heach
    refine h.notStale each ?_
    rw [harriving]
    exact List.mem_cons_of_mem _ heach
  · have hfollows := h.follows (hmember.mp hstays)
    rw [hmessages] at hfollows
    rw [hunsent, hreplica]
    exact hfollows.arrive
  · have habsent := h.absent (hmember.not.mp haway)
    rw [hmessages] at habsent
    rw [hreplica]
    exact habsent.arrive

end

/-! ### Runs -/

section

variable {c : Collaboration D}

theorem Together.onDevice (h : Together c) {deviceId : String}
    (call : YjsSessionManager D → YjsSessionManager D)
    (hcall : InTouch c.room deviceId
      { c.peers deviceId with manager := call (c.peers deviceId).manager }) :
    Together (c.onDevice deviceId call) := by
  refine ⟨h.hosts, fun other => ?_⟩
  show InTouch c.room other ((c.onDevice deviceId call).peers other)
  by_cases hid : other = deviceId
  · subst hid
    rw [peers_onDevice_self]
    exact hcall
  · rw [peers_onDevice_of_ne hid]
    exact h.inTouch other

/-- A call that leaves the manager as it is. -/
theorem Together.unmoved (h : Together c) {deviceId : String}
    (call : YjsSessionManager D → YjsSessionManager D)
    (hcall : call (c.peers deviceId).manager = (c.peers deviceId).manager) :
    Together (c.onDevice deviceId call) := by
  refine h.onDevice call ?_
  rw [hcall]
  exact h.inTouch deviceId

/-- The room goes on, and nothing is sent. -/
theorem Together.goesOn (h : Together c) {r : Room D} (hgoesOn : c.room.GoesOn r)
    (hsame : c.room.SameDoc r) : Together { c with room := r } := by
  refine ⟨h.hosts.goesOn hgoesOn (hsame.nextSeq ▸ h.hosts.nextSeq), fun deviceId => ?_⟩
  have hkept : InTouch r deviceId
      { c.peers deviceId with arriving := (c.peers deviceId).arriving ++ [] } :=
    (h.inTouch deviceId).noticed (hgoesOn.has deviceId) (fun _ => hsame)
      fun _ heach => absurd heach List.not_mem_nil
  rw [List.append_nil] at hkept
  exact hkept

omit [SemilatticeSup D] [OrderBot D] in
theorem notices_nil {α : Type} :
    ∀ result : α, ∀ message ∈ (fun _ => [] : α → List (RoomMessage D)) result,
      message.relayed = .notice :=
  fun _ _ hmessage => absurd hmessage List.not_mem_nil

/-- **A steady step keeps what the room and the sessions have of each other.** -/
theorem together_collabStep (h : Together c) (e : CollabEvent D) (hsteady : Steady cfg room c e) :
    Together (collabStep cfg room c e) := by
  cases e with
  | openFile deviceId => exact h.onDevice _ ((h.inTouch deviceId).openFile hsteady)
  | leaveFile deviceId => exact h.onDevice _ (h.inTouch deviceId).leaveFile
  | edit deviceId update =>
    exact h.onDevice (fun manager => manager.edit update) ((h.inTouch deviceId).edit update)
  | reconcileLayer1Content deviceId clientID text =>
    exact h.unmoved (fun manager => manager.reconcileLayer1Content cfg clientID text) hsteady
  | restored deviceId clientID text =>
    exact h.unmoved (fun manager => manager.restoreHistoryVersion cfg clientID text) hsteady
  | arrive deviceId clientID =>
    refine ⟨h.hosts, fun other => ?_⟩
    show InTouch c.room other
      (Function.update c.peers deviceId ((c.peers deviceId).arrive cfg clientID) other)
    by_cases hid : other = deviceId
    · subst hid
      rw [Function.update_self]
      exact (h.inTouch other).arrive clientID
    · rw [Function.update_of_ne hid]
      exact h.inTouch other
  | handleMessage busy now clientID deviceId userId =>
    obtain ⟨hbehind, hready, hadmits⟩ := hsteady
    exact together_handleMessage h hbehind hready hadmits
  | heartbeat busy now deviceId =>
    simp only [collabStep]
    split
    · exact h
    · next session hsession =>
      obtain ⟨hgoesOn, hsame, hsent⟩ := heartbeat_goesOn room now h.hosts
        fun hhas => ((h.inTouch deviceId).member_of_session hhas hsession).2
      refine (Together.post (h.goesOn hgoesOn hsame) ?_).post (notice_of_mem_answer notices_nil)
      rw [hsent]
      exact fun _ heach => absurd heach List.not_mem_nil
  | layer1 event => exact h.goesOn ⟨fun _ _ => Iff.rfl, rfl, rfl, id⟩ ⟨rfl, rfl, rfl⟩
  | demote busy now uuid deviceId =>
    exact (h.called hsteady effect_demote).post (notice_of_mem_answer notices_nil)
  | closeDeleted busy => exact h.called hsteady effect_closeDeleted
  | closingTimer busy now uuid => exact h.called hsteady effect_closingTimer
  | sweepExpired busy now uuid => exact h.called hsteady effect_sweepExpired
  | closeAll busy now uuid => exact h.called hsteady effect_closeAll
  | compact now throughSeq => exact h.called (fun _ _ _ => rfl) effect_compact
  | restoreHistoryVersion busy now uuid clientID deviceId userId versionId requestId =>
    refine (h.called hsteady (effect_restoreHistoryVersion hsteady)).post
      (notice_of_mem_answer fun restored message hmessage => ?_)
    rw [List.mem_singleton.mp hmessage]
    rfl

/-- Where the room and the sessions have what they should have of each other, they converge. -/
theorem Together.converges (h : Together c) : Converges c := by
  refine ⟨fun deviceId hmember session hsession => ?_, fun deviceId hmember hidle => ?_,
    fun deviceId => (h.inTouch deviceId).noGap⟩
  · have hin := h.inTouch deviceId
    have hfollows := hin.follows hmember
    have hreplica : (c.peers deviceId).replica = some session.replica := by
      rw [Peer.replica, Option.mem_def.mp hsession]
      rfl
    rw [hreplica] at hfollows
    have hle := hfollows.doc_le (hin.stateless hsession)
    have hge := hfollows.le_sup_held
    rw [held_messages] at hge
    exact ⟨hle.2, hle.1, le_sup_left.trans hge⟩
  · obtain ⟨hout, harriving⟩ := hidle
    obtain ⟨replica, htaken, -, hdoc, -⟩ := ((h.inTouch deviceId).follows hmember).taken
    have hmessages : (c.peers deviceId).messages = [] := by
      rw [Peer.messages, harriving, List.map_nil]
    have hunsent : (c.peers deviceId).unsent = ⊥ := by rw [Peer.unsent, hout, List.foldr_nil]
    rw [hmessages, Relay.taken_nil] at htaken
    obtain ⟨session, hsession, rfl⟩ := Option.map_eq_some_iff.mp htaken
    rw [hunsent, sup_bot_eq] at hdoc
    exact ⟨session, hsession, hdoc⟩

/-- **In every run of steady steps the sessions of a note converge**, from a room with nobody in
it. -/
theorem converges_run (cfg : YjsConfig D) (room : RoomConfig D) (r : Room D)
    (hempty : r.runtime.participants.rows = []) (hnextSeq : 0 < r.runtime.persisted.nextSeq)
    (es : List (CollabEvent D))
    (h : Run.EachStep (collabStep cfg room) (Steady cfg room) { room := r, peers := fun _ => {} }
      es) :
    Run.Throughout (collabStep cfg room) Converges { room := r, peers := fun _ => {} } es := by
  have hgone : ∀ deviceId, ¬ r.Has deviceId := by
    rintro deviceId ⟨sink, participant, hmem, -⟩
    rw [hempty] at hmem
    exact absurd hmem List.not_mem_nil
  have hstart : Together ({ room := r, peers := fun _ => {} } : Collaboration D) := by
    refine ⟨Hosts.of_gone hgone hnextSeq, fun deviceId => ⟨⟨Nat.zero_le _, ?_, ?_, ?_, ?_, ?_⟩,
      fun hmember => absurd hmember.1 (hgone deviceId), fun _ => ⟨trivial, rfl⟩⟩⟩
    · exact fun _ heach => absurd heach List.not_mem_nil
    · exact fun ⟨_, heach, _⟩ => absurd heach List.not_mem_nil
    · exact fun _ _ heach => absurd heach List.not_mem_nil
    · exact fun _ heach => absurd heach List.not_mem_nil
    · exact fun _ heach => absurd heach List.not_mem_nil
  have hkept :
      Run.Throughout (collabStep cfg room) Together { room := r, peers := fun _ => {} } es :=
    Run.throughout_of_invariant (C := Steady cfg room)
      (fun _ e htogether hsteady => together_collabStep htogether e hsteady) hstart h
  exact hkept.mono fun _ htogether => htogether.converges

omit [SemilatticeSup D] [OrderBot D] in
theorem Peer.Idle.notOpening {p : Peer D} (h : p.Idle) : p.NotOpening :=
  ⟨fun _ heach => absurd (h.1 ▸ heach) List.not_mem_nil,
    fun _ heach => absurd (h.2 ▸ heach) List.not_mem_nil⟩

end

/-! ### Two devices -/

/-- The room of a note, with nobody in it. -/
def sampleClosedRoom : Room (Finset Write) :=
  (roomStep sampleRoom { data := sampleStore } sampleCreate).materialize

/-- What the room makes of the note when it is opened. -/
def sampleOpened : Finset Write := writes.change 7 textName "one" ⊥

/-- Two devices open the note, and each writes into it before it hears of the other. -/
def sampleCollabRun : List (CollabEvent (Finset Write)) :=
  [.openFile "d1", .openFile "d2",
    .handleMessage ready 2 7 "d1" "u", .arrive "d1" 1,
    .handleMessage ready 3 8 "d2" "u", .arrive "d2" 2,
    .edit "d1" (writes.change 1 textName "two" sampleOpened),
    .edit "d2" (writes.change 2 textName "three" sampleOpened),
    .handleMessage ready 4 9 "d1" "u", .handleMessage ready 5 9 "d2" "u",
    .arrive "d1" 1, .arrive "d1" 1, .arrive "d2" 2, .arrive "d2" 2]

/-- A message of a device of the user is handled, when no socket is behind. -/
theorem steady_sampleMessage {c : Collaboration (Finset Write)} {now clientID : ℕ}
    {deviceId : String}
    (hrole : (requireRole sampleRoom.vaultId deviceId "u" true c.room.data).isOk = true)
    (hparticipant : (c.room.runtime.participants.get? deviceId).all (fun participant =>
      participant.role.canWrite && !(Room.checkRateLimit sampleRoom now participant).2) = true) :
    Steady { crdt := writes } sampleRoom c (.handleMessage ready now clientID deviceId "u") := by
  refine ⟨fun _ _ _ => rfl, rfl, fun _ _ update _ _ => ⟨hrole, Nat.zero_le _, ?_⟩⟩
  intro participant hget
  rw [Option.mem_def.mp hget, Option.all_some, Bool.and_eq_true, Bool.not_eq_true'] at hparticipant
  exact hparticipant

theorem converges_run_sample :
    Run.Throughout (collabStep { crdt := writes } sampleRoom) Converges
        { room := sampleClosedRoom, peers := fun _ => {} } sampleCollabRun ∧
      ∀ deviceId ∈ ["d1", "d2"],
        ((Run.final (collabStep { crdt := writes } sampleRoom)
          { room := sampleClosedRoom, peers := fun _ => {} } sampleCollabRun).peers
            deviceId).manager.session.map (fun session => writes.content textName session.doc)
          = some "three" := by
  refine ⟨converges_run { crdt := writes } sampleRoom sampleClosedRoom (by decide +kernel)
    (by decide +kernel) sampleCollabRun ?_, by decide +kernel⟩
  refine ⟨fun _ => Peer.Idle.notOpening ⟨rfl, rfl⟩, fun _ => Peer.Idle.notOpening ⟨rfl, rfl⟩,
    ?_, trivial, ?_, trivial, trivial, trivial, ?_, ?_, trivial, trivial, trivial, trivial,
    trivial⟩ <;>
    exact steady_sampleMessage (by decide +kernel) (by decide +kernel)

end

end ObsidianSync
