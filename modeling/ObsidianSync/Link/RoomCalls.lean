import ObsidianSync.Link.Collaboration

/-!
# What the calls on a room send

Each call on a room leaves its participants and its document as they are and sends notices, takes
one update and sends it with the next number, or closes the incarnation and says so.  Only a device
that opens or leaves changes who takes part.

## Main definitions

* `Hosts` — a room with participants is open, and sends to their devices.
* `Room.Effect` — what a call leaves and sends.
* `OpensRoom`, `LeavesRoom`, `Merges` — the same of the calls of a device that opens, leaves and
  edits.
* `Together` — a room with every device in touch.

## Main results

* `InTouch.effect` — what a call does keeps every device in touch with the room.
* `promote_opens`, `leave_leaves`, `handleUpdate_merges` — the calls of a device.
-/

namespace ObsidianSync

section

variable {D : Type} [SemilatticeSup D] [OrderBot D] {cfg : YjsConfig D} {room : RoomConfig D}

/-! ### Calls on the room -/

omit [SemilatticeSup D] [OrderBot D] in
/-- A room with participants is open, and sends to their devices. -/
structure Hosts (r : Room D) : Prop where
  nextSeq : 0 < r.runtime.persisted.nextSeq
  sinks : ∀ deviceId sink, r.Seat deviceId sink → sink.deviceId = deviceId
  opened : ∀ deviceId, r.Has deviceId →
    r.runtime.persisted.active = true ∧ r.runtime.state ≠ .closed

omit [SemilatticeSup D] [OrderBot D] in
/-- The room goes on with its participants. -/
structure Room.GoesOn (r r' : Room D) : Prop where
  seats : ∀ deviceId sink, r'.Seat deviceId sink ↔ r.Seat deviceId sink
  epoch : r'.runtime.persisted.epoch = r.runtime.persisted.epoch
  active : r'.runtime.persisted.active = r.runtime.persisted.active
  opened : r.runtime.state ≠ .closed → r'.runtime.state ≠ .closed

omit [SemilatticeSup D] [OrderBot D] in
/-- One message is sent on sockets, on all of the participants but one. -/
structure Room.Announces (r : Room D) (except : Option String) (message : RoomMessage D)
    (sent : List (RoomSink × RoomMessage D)) : Prop where
  eq : ∀ each ∈ sent, each.2 = message
  all : ∀ deviceId sink, r.Seat deviceId sink → some deviceId ≠ except → (sink, message) ∈ sent
  none : ∀ deviceId ∈ except, ∀ each ∈ sent, each.1.deviceId ≠ deviceId

/-- What a call on the room leaves and sends: notices, an update with the next number, or the
news that the incarnation is closed. -/
inductive Room.Effect (r r' : Room D) (sent : List (RoomSink × RoomMessage D)) : Prop
  | noticed (goesOn : r.GoesOn r') (doc : r'.runtime.doc = r.runtime.doc)
      (nextSeq : r'.runtime.persisted.nextSeq = r.runtime.persisted.nextSeq)
      (notices : ∀ each ∈ sent, each.2.relayed = .notice)
  | updated (update : D) (source : Option String) (goesOn : r.GoesOn r')
      (doc : r'.runtime.doc = r.runtime.doc ⊔ update)
      (nextSeq : r'.runtime.persisted.nextSeq = r.runtime.persisted.nextSeq + 1)
      (announces : r.Announces none (.yjsUpdate r.runtime.persisted.epoch
        r.runtime.persisted.nextSeq update source) sent)
  | closed (reason : RoomClosedReason) (hash : Option String) (gone : ∀ deviceId, ¬ r'.Has deviceId)
      (nextSeq : r'.runtime.persisted.nextSeq = r.runtime.persisted.nextSeq)
      (reason_ne : reason ≠ .epochStale)
      (announces : r.Announces none (.roomClosed r.runtime.persisted.epoch reason hash) sent)

section

variable {r r' : Room D} {busy : RoomSink → Bool} {now : ℕ} {uuid : Uuid}
  {deviceId userId : String} {clientID : ℕ}

omit [SemilatticeSup D] [OrderBot D] in
theorem Room.GoesOn.refl (r : Room D) : r.GoesOn r := ⟨fun _ _ => Iff.rfl, rfl, rfl, id⟩

omit [SemilatticeSup D] [OrderBot D] in
theorem Room.GoesOn.has (h : r.GoesOn r') (deviceId : String) :
    r'.Has deviceId ↔ r.Has deviceId :=
  exists_congr fun sink => h.seats deviceId sink

omit [SemilatticeSup D] [OrderBot D] in
theorem Hosts.goesOn (h : Hosts r) (hgoesOn : r.GoesOn r')
    (hnextSeq : 0 < r'.runtime.persisted.nextSeq) : Hosts r' where
  nextSeq := hnextSeq
  sinks deviceId sink hseat := h.sinks deviceId sink ((hgoesOn.seats deviceId sink).mp hseat)
  opened deviceId hhas := by
    obtain ⟨hactive, hopen⟩ := h.opened deviceId ((hgoesOn.has deviceId).mp hhas)
    exact ⟨hgoesOn.active.trans hactive, hgoesOn.opened hopen⟩

omit [SemilatticeSup D] [OrderBot D] in
theorem Hosts.of_gone (hgone : ∀ deviceId, ¬ r'.Has deviceId)
    (hnextSeq : 0 < r'.runtime.persisted.nextSeq) : Hosts r' where
  nextSeq := hnextSeq
  sinks deviceId sink hseat := absurd ⟨sink, hseat⟩ (hgone deviceId)
  opened deviceId hhas := absurd hhas (hgone deviceId)

omit [OrderBot D] in
theorem Room.Effect.hosts {sent : List (RoomSink × RoomMessage D)} (h : Hosts r)
    (heffect : r.Effect r' sent) : Hosts r' := by
  cases heffect with
  | noticed goesOn doc nextSeq notices => exact h.goesOn goesOn (nextSeq ▸ h.nextSeq)
  | updated update source goesOn doc nextSeq announces =>
    exact h.goesOn goesOn (nextSeq ▸ Nat.succ_pos _)
  | closed reason hash gone nextSeq reason_ne announces =>
    exact Hosts.of_gone gone (nextSeq ▸ h.nextSeq)

omit [OrderBot D] in
theorem Room.Effect.data (r : Room D) (data : Store) : r.Effect { r with data } [] :=
  .noticed ⟨fun _ _ => Iff.rfl, rfl, rfl, id⟩ rfl rfl fun _ heach => absurd heach List.not_mem_nil

omit [OrderBot D] in
theorem Room.Effect.refl (r : Room D) : r.Effect r [] :=
  Room.Effect.data r r.data

omit [SemilatticeSup D] [OrderBot D] in
theorem announces_broadcastRoom {message : RoomMessage D} {always : Bool}
    (hsame : r'.runtime.participants = r.runtime.participants)
    (h : always = true ∨ r.NoneBehind busy) :
    r.Announces none message (r'.broadcastRoom busy message always) := by
  refine ⟨?_, ?_, fun deviceId hnone => absurd hnone.symm (Option.some_ne_none _)⟩
  · intro each heach
    obtain ⟨sink, -, rfl⟩ := List.mem_map.mp heach
    rfl
  · rintro deviceId sink ⟨participant, hmem, rfl, rfl⟩ -
    refine List.mem_map.mpr ⟨participant.sink, List.mem_filter.mpr ⟨?_, ?_⟩, rfl⟩
    · rw [hsame]
      exact List.mem_append_left _ (List.mem_map_of_mem hmem)
    · rcases h with rfl | hnone
      · rfl
      · rw [hnone _ _ ⟨participant, hmem, rfl, rfl⟩]
        exact Bool.or_true _

omit [SemilatticeSup D] [OrderBot D] in
theorem not_has_closed {persisted : PersistedYjsRoom D} {data : Store} {store : YjsRoomStore D}
    (deviceId : String) : ¬ Room.Has ⟨data, store, r.closed persisted⟩ deviceId := by
  rintro ⟨sink, participant, hmem, -⟩
  exact absurd hmem List.not_mem_nil

/-- A close is refused, or it ends the incarnation. -/
theorem demoteLocked_effect (room : RoomConfig D) (r : Room D) (busy : RoomSink → Bool) (now : ℕ)
    (uuid : Uuid) {reason : RoomClosedReason} (hreason : reason ≠ .epochStale) :
    ((∃ data, (r.demoteLocked room busy now uuid reason).room = { r with data }) ∧
        (r.demoteLocked room busy now uuid reason).sent = []) ∨
      (∃ hash, (r.demoteLocked room busy now uuid reason).result = .ok hash) ∧
        r.Effect (r.demoteLocked room busy now uuid reason).room
          (r.demoteLocked room busy now uuid reason).sent := by
  unfold Room.demoteLocked
  split
  · exact Or.inl ⟨⟨r.data, rfl⟩, rfl⟩
  dsimp only
  split
  · next data _ => exact Or.inl ⟨⟨data, rfl⟩, rfl⟩
  · next data _ => exact Or.inl ⟨⟨data, rfl⟩, rfl⟩
  · -- The news of the close is sent even on sockets that are behind.
    refine Or.inr ⟨⟨_, rfl⟩, ?_⟩
    exact .closed reason (some (contentHashText room.platform
      (room.crdt.content textName r.runtime.doc))) (fun deviceId => not_has_closed deviceId) rfl
      hreason (announces_broadcastRoom rfl (Or.inl rfl))

theorem effect_demoteLocked {reason : RoomClosedReason} (hreason : reason ≠ .epochStale) :
    r.Effect (r.demoteLocked room busy now uuid reason).room
      (r.demoteLocked room busy now uuid reason).sent := by
  rcases demoteLocked_effect room r busy now uuid hreason with ⟨⟨data, hroom⟩, hsent⟩ | ⟨-, heffect⟩
  · rw [hroom, hsent]
    exact Room.Effect.data r data
  · exact heffect

theorem effect_demoteCaught {reason : RoomClosedReason} (hreason : reason ≠ .epochStale)
    {failed : Room D → Room D} (hfailed : ∀ s : Room D, s.GoesOn (failed s) ∧
      (failed s).runtime.doc = s.runtime.doc ∧
      (failed s).runtime.persisted.nextSeq = s.runtime.persisted.nextSeq) :
    r.Effect (r.demoteCaught room busy now uuid reason failed).room
      (r.demoteCaught room busy now uuid reason failed).sent := by
  unfold Room.demoteCaught
  dsimp only
  split
  · exact effect_demoteLocked hreason
  · next e herror =>
    rcases demoteLocked_effect room r busy now uuid hreason with
      ⟨⟨data, hroom⟩, -⟩ | ⟨⟨hash, hok⟩, -⟩
    · rw [hroom]
      obtain ⟨hgoesOn, hdoc, hnextSeq⟩ := hfailed { r with data }
      refine .noticed ⟨hgoesOn.seats, hgoesOn.epoch, hgoesOn.active, hgoesOn.opened⟩ hdoc hnextSeq
        ?_
      intro each heach
      obtain ⟨sink, -, rfl⟩ := List.mem_map.mp heach
      rfl
    · rw [hok] at herror
      cases herror

theorem effect_closingTimer :
    r.Effect (r.closingTimer room busy now uuid).room (r.closingTimer room busy now uuid).sent := by
  unfold Room.closingTimer
  split
  · refine effect_demoteCaught (by decide) fun s => ⟨⟨fun _ _ => Iff.rfl, rfl, rfl, ?_⟩, rfl, rfl⟩
    intro _
    exact RuntimeState.noConfusion
  · exact Room.Effect.refl r

theorem effect_closeAll :
    r.Effect (r.closeAll room busy now uuid .evicted).room
      (r.closeAll room busy now uuid .evicted).sent := by
  unfold Room.closeAll
  split
  · exact Room.Effect.refl r
  · exact effect_demoteCaught (by decide) fun s => ⟨Room.GoesOn.refl s, rfl, rfl⟩

theorem effect_sweepExpired :
    r.Effect (r.sweepExpired room busy now uuid).room (r.sweepExpired room busy now uuid).sent := by
  unfold Room.sweepExpired
  split
  · exact effect_demoteLocked (by decide)
  · exact Room.Effect.refl r

theorem effect_demote :
    r.Effect (r.demote room busy now uuid deviceId none .demoted).room
      (r.demote room busy now uuid deviceId none .demoted).sent :=
  effect_demoteLocked (by decide)

theorem effect_closeDeleted :
    r.Effect (r.closeDeleted room busy).room (r.closeDeleted room busy).sent := by
  unfold Room.closeDeleted
  split
  · exact .closed .deleted none (fun deviceId => not_has_closed deviceId) rfl (by decide)
      (announces_broadcastRoom rfl (Or.inl rfl))
  · exact Room.Effect.refl r

theorem effect_compact {throughSeq : Option ℕ} :
    r.Effect (r.compact room now throughSeq).room (r.compact room now throughSeq).sent :=
  .noticed ⟨fun _ _ => Iff.rfl, rfl, rfl, id⟩ rfl rfl fun _ heach => absurd heach List.not_mem_nil

theorem effect_restoreHistoryVersion {versionId : ℕ} {requestId : String}
    (h : r.NoneBehind busy) :
    r.Effect
      (r.restoreHistoryVersion room busy now uuid clientID deviceId userId versionId requestId).room
      (r.restoreHistoryVersion room busy now uuid clientID deviceId userId versionId
        requestId).sent := by
  unfold Room.restoreHistoryVersion
  split
  · exact Room.Effect.refl r
  split
  · exact Room.Effect.refl r
  split
  · exact Room.Effect.refl r
  dsimp only
  split
  · next data _ => exact Room.Effect.data r data
  · next data _ => exact Room.Effect.data r data
  · exact .updated _ none ⟨fun _ _ => Iff.rfl, rfl, rfl, id⟩ rfl rfl
      (announces_broadcastRoom rfl (Or.inr h))

end

/-! ### What is sent -/

section

variable {r r' : Room D} {busy : RoomSink → Bool} {p : Peer D} {deviceId : String}
  {sent : List (RoomSink × RoomMessage D)} {more : List (RoomMessage D)}

omit [SemilatticeSup D] [OrderBot D] in
@[simp] theorem mail_nil (deviceId : String) :
    mail deviceId ([] : List (RoomSink × RoomMessage D)) = [] := rfl

omit [SemilatticeSup D] [OrderBot D] in
theorem mail_cons (deviceId : String) (sink : RoomSink) (message : RoomMessage D)
    (sent : List (RoomSink × RoomMessage D)) :
    mail deviceId ((sink, message) :: sent)
      = if sink.deviceId = deviceId then message :: mail deviceId sent else mail deviceId sent := by
  unfold mail
  by_cases hid : sink.deviceId = deviceId
  · rw [if_pos hid, List.filter_cons_of_pos (by exact decide_eq_true hid), List.map_cons]
  · rw [if_neg hid, List.filter_cons_of_neg (by exact fun h => hid (of_decide_eq_true h))]

omit [SemilatticeSup D] [OrderBot D] in
/-- A message is sent on a socket that is not behind. -/
theorem filter_of_ready {sink : RoomSink} (h : busy sink = false) (message : RoomMessage D)
    (sent : List (RoomSink × RoomMessage D)) :
    ((sink, message) :: sent).filter (fun each => !busy each.1)
      = (sink, message) :: sent.filter fun each => !busy each.1 := by
  simp [h]

omit [SemilatticeSup D] [OrderBot D] in
theorem mem_mail {message : RoomMessage D} :
    message ∈ mail deviceId (sent.filter fun message => !busy message.1) ↔
      ∃ sink, (sink, message) ∈ sent ∧ busy sink = false ∧ sink.deviceId = deviceId := by
  simp only [mail, List.mem_map, List.mem_filter, decide_eq_true_eq, Bool.not_eq_true', Prod.exists]
  constructor
  · rintro ⟨sink, each, ⟨⟨hsent, hbusy⟩, hid⟩, rfl⟩
    exact ⟨sink, hsent, hbusy, hid⟩
  · rintro ⟨sink, hsent, hbusy, hid⟩
    exact ⟨sink, message, ⟨⟨hsent, hbusy⟩, hid⟩, rfl⟩

omit [SemilatticeSup D] [OrderBot D] in
/-- A participant gets a message that is announced, and nothing else. -/
theorem mail_of_announces {except : Option String} {message : RoomMessage D} (h : Hosts r)
    (hbehind : r.NoneBehind busy) (hannounces : r.Announces except message sent)
    (deviceId : String) :
    (∀ each ∈ mail deviceId (sent.filter fun message => !busy message.1), each = message) ∧
      (r.Has deviceId → some deviceId ≠ except →
        mail deviceId (sent.filter fun message => !busy message.1) ≠ []) := by
  refine ⟨?_, ?_⟩
  · intro each heach
    obtain ⟨sink, hsent, -⟩ := mem_mail.mp heach
    exact hannounces.eq _ hsent
  · rintro ⟨sink, hseat⟩ hexcept
    refine List.ne_nil_of_mem (mem_mail.mpr ⟨sink, hannounces.all _ _ hseat hexcept, ?_, ?_⟩)
    · exact hbehind _ _ hseat
    · exact h.sinks _ _ hseat

/-- The document of the room, and its last number, stay what they are. -/
structure Room.SameDoc (r r' : Room D) : Prop where
  epoch : r'.runtime.persisted.epoch = r.runtime.persisted.epoch
  doc : r'.runtime.doc = r.runtime.doc
  nextSeq : r'.runtime.persisted.nextSeq = r.runtime.persisted.nextSeq

omit [SemilatticeSup D] [OrderBot D] in
theorem isStale_of_notice {message : RoomMessage D} (h : message.relayed = .notice) :
    message.relayed.isState = false ∧ message.isStale = false := by
  cases message with
  | historyRestored requestId versionId text => exact ⟨rfl, rfl⟩
  | error error => exact ⟨rfl, rfl⟩
  | _ => cases h

namespace InTouch

/-- Nothing happens to the device but that it gets notices. -/
theorem noticed (h : InTouch r deviceId p) (hhas : r'.Has deviceId ↔ r.Has deviceId)
    (hsame : r.Has deviceId → r.SameDoc r') (hnotices : ∀ each ∈ more, each.relayed = .notice) :
    InTouch r' deviceId { p with arriving := p.arriving ++ more } := by
  refine h.post (fun each heach => (isStale_of_notice (hnotices each heach)).1)
    (fun each heach => (isStale_of_notice (hnotices each heach)).2)
    (fun hnow => ⟨hhas.mp hnow, (hsame (hhas.mp hnow)).epoch⟩) ?_ ?_
  · intro hmember hnow
    obtain ⟨hepoch, hdoc, hnextSeq⟩ := hsame (hhas.mp hnow)
    rw [hepoch, hdoc, hnextSeq]
    refine (h.follows hmember).notices fun each heach => ?_
    obtain ⟨message, hmessage, rfl⟩ := List.mem_map.mp heach
    exact hnotices message hmessage
  · intro hmember hnot
    exact absurd (hhas.mpr hmember.1) hnot

/-- An update of another device comes to the device, if it is a participant. -/
theorem updated (h : InTouch r deviceId p) (hhosts : Hosts r) {update : D} {source : Option String}
    (hhas : r'.Has deviceId ↔ r.Has deviceId)
    (hepoch : r'.runtime.persisted.epoch = r.runtime.persisted.epoch)
    (hdoc : r'.runtime.doc = r.runtime.doc ⊔ update)
    (hnextSeq : r'.runtime.persisted.nextSeq = r.runtime.persisted.nextSeq + 1)
    (hmore : ∀ each ∈ more, each = .yjsUpdate r.runtime.persisted.epoch
      r.runtime.persisted.nextSeq update source) (hne : r.Has deviceId → more ≠ []) :
    InTouch r' deviceId { p with arriving := p.arriving ++ more } := by
  refine h.post (fun each heach => by rw [hmore each heach]; rfl)
    (fun each heach => by rw [hmore each heach]; rfl) (fun hnow => ⟨hhas.mp hnow, hepoch⟩) ?_ ?_
  · intro hmember hnow
    have hpred : r.runtime.persisted.nextSeq - 1 + 1 = r.runtime.persisted.nextSeq :=
      Nat.sub_add_cancel hhosts.nextSeq
    -- The update that a participant is sent has the number after the last one before it.
    have hrelayed : ∀ each ∈ more.map RoomMessage.relayed, each
        = .update r.runtime.persisted.epoch (r.runtime.persisted.nextSeq - 1 + 1) update := by
      intro each heach
      obtain ⟨message, hmessage, rfl⟩ := List.mem_map.mp heach
      rw [hmore message hmessage, hpred]
      rfl
    have hfollows := (h.follows hmember).update
      (fun hnil => hne hmember.1 (List.map_eq_nil_iff.mp hnil)) hrelayed
    rw [hepoch, hdoc, hnextSeq, Nat.add_sub_cancel, sup_right_comm]
    rwa [hpred] at hfollows
  · intro hmember hnot
    exact absurd (hhas.mpr hmember.1) hnot

/-- The incarnation is closed. -/
theorem closed (h : InTouch r deviceId p) {reason : RoomClosedReason} {hash : Option String}
    (hgone : ¬ r'.Has deviceId) (hreason : reason ≠ .epochStale)
    (hmore : ∀ each ∈ more, each = .roomClosed r.runtime.persisted.epoch reason hash)
    (hne : r.Has deviceId → more ≠ []) :
    InTouch r' deviceId { p with arriving := p.arriving ++ more } := by
  refine h.post (fun each heach => by rw [hmore each heach]; rfl) ?_
    (fun hnow => absurd hnow hgone) (fun _ hnow => absurd hnow hgone) ?_
  · intro each heach
    rw [hmore each heach]
    cases reason with
    | epochStale => exact absurd rfl hreason
    | _ => rfl
  · intro hmember _
    refine (h.follows hmember).closed (fun hnil => hne hmember.1 (List.map_eq_nil_iff.mp hnil)) ?_
    intro each heach
    obtain ⟨message, hmessage, rfl⟩ := List.mem_map.mp heach
    rw [hmore message hmessage]
    rfl

theorem effect (h : InTouch r deviceId p) (hhosts : Hosts r) (hbehind : r.NoneBehind busy)
    (heffect : r.Effect r' sent) :
    InTouch r' deviceId { p with
      arriving := p.arriving ++ mail deviceId (sent.filter fun message => !busy message.1) } := by
  cases heffect with
  | noticed goesOn doc nextSeq notices =>
    refine h.noticed (goesOn.has deviceId) (fun _ => ⟨goesOn.epoch, doc, nextSeq⟩) ?_
    intro each heach
    obtain ⟨sink, hsent, -⟩ := mem_mail.mp heach
    exact notices _ hsent
  | updated update source goesOn doc nextSeq announces =>
    obtain ⟨heq, hne⟩ := mail_of_announces hhosts hbehind announces deviceId
    exact h.updated hhosts (goesOn.has deviceId) goesOn.epoch doc nextSeq heq
      fun hhas => hne hhas (Option.some_ne_none _)
  | closed reason hash gone nextSeq reason_ne announces =>
    obtain ⟨heq, hne⟩ := mail_of_announces hhosts hbehind announces deviceId
    exact h.closed (gone deviceId) reason_ne heq fun hhas => hne hhas (Option.some_ne_none _)

end InTouch

end

/-! ### Steps -/

/-- The room, and what it and the devices have of each other. -/
structure Together (c : Collaboration D) : Prop where
  hosts : Hosts c.room
  inTouch : ∀ deviceId, InTouch c.room deviceId (c.peers deviceId)

section

variable {c : Collaboration D} {busy : RoomSink → Bool} {deviceId : String}

/-- A call on the room. -/
theorem Together.called {α : Type} {outcome : Outcome D α} (h : Together c)
    (hbehind : c.room.NoneBehind busy) (heffect : c.room.Effect outcome.room outcome.sent) :
    Together (c.called busy outcome) where
  hosts := heffect.hosts h.hosts
  inTouch deviceId := (h.inTouch deviceId).effect h.hosts hbehind heffect

/-- Notices are sent. -/
theorem Together.post (h : Together c) {sent : List (RoomSink × RoomMessage D)}
    (hnotices : ∀ each ∈ sent, each.2.relayed = .notice) : Together (c.post busy sent) where
  hosts := h.hosts
  inTouch deviceId := by
    refine (h.inTouch deviceId).noticed Iff.rfl (fun _ => ⟨rfl, rfl, rfl⟩) fun each heach => ?_
    obtain ⟨sink, hsent, -⟩ := mem_mail.mp heach
    exact hnotices _ hsent

omit [SemilatticeSup D] [OrderBot D] in
theorem notice_of_mem_answer {α : Type} {outcome : Outcome D α} {reply : α → List (RoomMessage D)}
    (hreply : ∀ result, ∀ message ∈ reply result, message.relayed = .notice) :
    ∀ each ∈ outcome.answer deviceId reply, each.2.relayed = .notice := by
  intro each heach
  unfold Outcome.answer at heach
  split at heach
  · next result _ =>
    obtain ⟨message, hmessage, rfl⟩ := List.mem_map.mp heach
    exact hreply result message hmessage
  · rw [List.mem_singleton.mp heach]
    rfl

end

/-! ### Calls of a device -/

section

variable {r : Room D} {busy : RoomSink → Bool} {now clientID : ℕ} {deviceId userId : String}

omit [SemilatticeSup D] [OrderBot D] in
theorem has_iff {other : String} :
    r.Has other ↔ ∃ participant, r.runtime.participants.get? other = some participant := by
  constructor
  · rintro ⟨sink, participant, hmem, rfl, -⟩
    exact ⟨participant, Table.get?_key hmem⟩
  · rintro ⟨participant, hget⟩
    exact ⟨participant.sink, participant, Table.mem_of_get? hget, Table.key_of_get? hget, rfl⟩

omit [SemilatticeSup D] [OrderBot D] in
theorem get?_of_not_has (hhas : ¬ r.Has deviceId) :
    r.runtime.participants.get? deviceId = none := by
  rw [has_iff, not_exists] at hhas
  exact Option.eq_none_iff_forall_ne_some.mpr hhas

omit [SemilatticeSup D] [OrderBot D] in
/-- A device that is no participant is sent nothing about a message that is stale. -/
theorem nil_of_rejectIfStale {roomEpoch : ℕ} {sent : List (RoomSink × RoomMessage D)}
    (hhas : ¬ r.Has deviceId) (h : r.rejectIfStale roomEpoch deviceId = some sent) : sent = [] := by
  unfold Room.rejectIfStale at h
  rw [get?_of_not_has hhas] at h
  dsimp only at h
  split at h
  · exact (Option.some.inj h).symm
  · split at h
    · exact (Option.some.inj h).symm
    · exact absurd h.symm (Option.some_ne_none _)

omit [SemilatticeSup D] [OrderBot D] in
theorem rejectIfStale_of_has (h : Hosts r) (hhas : r.Has deviceId) {roomEpoch : ℕ}
    (hcurrent : roomEpoch = r.runtime.persisted.epoch) :
    r.rejectIfStale roomEpoch deviceId = none := by
  obtain ⟨hactive, hopen⟩ := h.opened deviceId hhas
  exact Room.rejectIfStale_eq_none_iff.mpr ⟨hactive, hcurrent.symm, hopen⟩

omit [SemilatticeSup D] [OrderBot D] in
theorem requireParticipant_of_not_has (hhas : ¬ r.Has deviceId) :
    ∃ e, r.requireParticipant deviceId = .error e := by
  unfold Room.requireParticipant
  rw [get?_of_not_has hhas]
  exact ⟨_, rfl⟩

/-- A heartbeat changes nothing but the lease, and is not answered. -/
theorem heartbeat_goesOn (room : RoomConfig D) (now : ℕ) (h : Hosts r) {roomEpoch : ℕ}
    (hcurrent : r.Has deviceId → roomEpoch = r.runtime.persisted.epoch) :
    r.GoesOn (r.heartbeat room now deviceId roomEpoch).room ∧
      r.SameDoc (r.heartbeat room now deviceId roomEpoch).room ∧
      (r.heartbeat room now deviceId roomEpoch).sent = [] := by
  unfold Room.heartbeat
  split
  · next sent hstale =>
    have hnot : ¬ r.Has deviceId := fun hhas => by
      rw [rejectIfStale_of_has h hhas (hcurrent hhas)] at hstale
      exact absurd hstale.symm (Option.some_ne_none _)
    exact ⟨Room.GoesOn.refl r, ⟨rfl, rfl, rfl⟩, nil_of_rejectIfStale hnot hstale⟩
  · split
    · exact ⟨Room.GoesOn.refl r, ⟨rfl, rfl, rfl⟩, rfl⟩
    · exact ⟨⟨fun _ _ => Iff.rfl, rfl, rfl, id⟩, ⟨rfl, rfl, rfl⟩, rfl⟩

/-! #### Opening -/

omit [SemilatticeSup D] [OrderBot D] in
theorem seat_withParticipant {participant : Participant} {other : String} {sink : RoomSink} :
    (r.withParticipant participant).Seat other sink ↔
      if other = participant.deviceId then sink = participant.sink else r.Seat other sink := by
  unfold Room.Seat Room.withParticipant
  constructor
  · rintro ⟨each, hmem, rfl, rfl⟩
    rcases Table.mem_set_iff.mp hmem with rfl | ⟨hmem, hne⟩
    · rw [if_pos rfl]
    · rw [if_neg hne]
      exact ⟨each, hmem, rfl, rfl⟩
  · intro hseat
    split at hseat
    · next hid => exact ⟨participant, Table.mem_set_iff.mpr (Or.inl rfl), hid.symm, hseat.symm⟩
    · next hid =>
      obtain ⟨each, hmem, rfl, rfl⟩ := hseat
      exact ⟨each, Table.mem_set_iff.mpr (Or.inr ⟨hmem, hid⟩), rfl, rfl⟩

omit [SemilatticeSup D] [OrderBot D] in
theorem not_activates (h : Hosts r) (hhas : r.Has deviceId) : r.activates = false := by
  obtain ⟨hactive, hopen⟩ := h.opened deviceId hhas
  simp [Room.activates, hactive, hopen]

/-- The room that a promotion joins: the one there is, or an empty one that is activated. -/
structure Joinable (r s : Room D) : Prop where
  nextSeq : 0 < s.runtime.persisted.nextSeq
  active : s.runtime.persisted.active = true
  seats : ∀ other sink, s.Seat other sink ↔ r.Seat other sink
  same : ∀ other, r.Has other → r.SameDoc s

theorem joinable_activate (h : Hosts r) {file : StoredFile} :
    Joinable r (if r.activates then r.activate room now clientID file deviceId else r) := by
  cases hactivates : r.activates with
  | true =>
    refine ⟨Nat.one_pos, rfl, fun _ _ => Iff.rfl, fun other hhas => ?_⟩
    rw [not_activates h hhas] at hactivates
    cases hactivates
  | false =>
    refine ⟨h.nextSeq, ?_, fun _ _ => Iff.rfl, fun other hhas => ⟨rfl, rfl, rfl⟩⟩
    rw [Room.activates, Bool.or_eq_false_iff] at hactivates
    simpa using hactivates.1

/-- A promotion throws, and the room has the participants it had. -/
structure Declines (r : Room D) (outcome : Outcome D (RoomMessage D)) : Prop where
  result : ∃ e, outcome.result = .error e
  sent : outcome.sent = []
  hosts : Hosts outcome.room
  has : ∀ other, outcome.room.Has other ↔ r.Has other
  same : ∀ other, r.Has other → r.SameDoc outcome.room

/-- A promotion makes the device a participant, and is answered with the state of the room. -/
structure OpensRoom (r : Room D) (deviceId : String) (outcome : Outcome D (RoomMessage D)) :
    Prop where
  result : outcome.result = .ok outcome.room.roomState
  sent : outcome.sent = []
  hosts : Hosts outcome.room
  has : outcome.room.Has deviceId
  others : ∀ other, other ≠ deviceId → (outcome.room.Has other ↔ r.Has other)
  same : ∀ other, r.Has other → r.SameDoc outcome.room

theorem join_opens {s : Room D} {file : StoredFile} (h : Hosts r) (hjoinable : Joinable r s) :
    Declines r (s.join room now file deviceId userId 0) ∨
      OpensRoom r deviceId (s.join room now file deviceId userId 0) := by
  -- Whether or not the device may join, the lease is longer and the room is open again.
  set t := (s.extendLease room now deviceId).welcomeBack deviceId with ht
  have hseats : ∀ other sink, t.Seat other sink ↔ r.Seat other sink := hjoinable.seats
  have hhosts : Hosts t := by
    refine ⟨hjoinable.nextSeq, fun other sink hseat => h.sinks _ _ ((hseats _ _).mp hseat), ?_⟩
    intro other _
    exact ⟨hjoinable.active, RuntimeState.noConfusion⟩
  have hhas : ∀ other, t.Has other ↔ r.Has other :=
    fun other => exists_congr fun sink => hseats other sink
  have hsame : ∀ other, r.Has other → r.SameDoc t := fun other hother =>
    ⟨(hjoinable.same other hother).epoch, (hjoinable.same other hother).doc,
      (hjoinable.same other hother).nextSeq⟩
  rcases s.join_cases with ⟨e, hjoin⟩ | ⟨role, joined, hjoined, hjoin⟩
  · rw [hjoin]
    exact Or.inl ⟨⟨e, rfl⟩, rfl, hhosts, hhas, hsame⟩
  · have hseat : ∀ other sink, joined.Seat other sink ↔
        if other = deviceId then sink = sinkOf deviceId else t.Seat other sink := by
      intro other sink
      rw [hjoined, ← ht]
      exact seat_withParticipant
    rw [hjoin]
    refine Or.inr ⟨rfl, rfl, ⟨?_, ?_, ?_⟩, ⟨sinkOf deviceId, ?_⟩, ?_, ?_⟩
    · rw [hjoined]
      exact hjoinable.nextSeq
    · intro other sink hother
      rw [hseat] at hother
      split at hother
      · next hid => rw [hother, hid]; rfl
      · exact hhosts.sinks other sink hother
    · intro other _
      rw [hjoined]
      exact ⟨hjoinable.active, RuntimeState.noConfusion⟩
    · rw [hseat, if_pos rfl]
    · intro other hne
      refine Iff.trans (exists_congr fun sink => ?_) (hhas other)
      rw [hseat, if_neg hne]
    · intro other hother
      rw [hjoined]
      exact ⟨(hsame other hother).epoch, (hsame other hother).doc, (hsame other hother).nextSeq⟩

theorem promote_opens (h : Hosts r) :
    Declines r (r.promote room now clientID deviceId userId 0) ∨
      OpensRoom r deviceId (r.promote room now clientID deviceId userId 0) := by
  rcases r.promote_cases with ⟨hroom, hsent, e, herror⟩ | ⟨file, -, -, hpromote⟩
  · refine Or.inl ⟨⟨e, herror⟩, hsent, ?_, ?_, ?_⟩ <;> rw [hroom]
    · exact h
    · exact fun _ => Iff.rfl
    · exact fun _ _ => ⟨rfl, rfl, rfl⟩
  · rw [hpromote]
    exact join_opens h (joinable_activate h)

/-! #### Leaving -/

/-- What is left when a device leaves, if it was there. -/
structure LeavesRoom (r : Room D) (deviceId : String) (outcome : Outcome D Unit) : Prop where
  sent : outcome.sent = []
  hosts : Hosts outcome.room
  gone : ¬ outcome.room.Has deviceId
  others : ∀ other, other ≠ deviceId → (outcome.room.Has other ↔ r.Has other)
  same : r.SameDoc outcome.room

omit [SemilatticeSup D] [OrderBot D] in
theorem leaves_removeParticipant (h : Hosts r) {participant : Participant}
    (hid : participant.deviceId = deviceId) (result : Except Failure Unit) :
    LeavesRoom r deviceId { result, room := r.removeParticipant participant } := by
  have hparticipants : (r.removeParticipant participant).runtime.participants
      = r.runtime.participants.erase deviceId := by
    unfold Room.removeParticipant Room.scheduleClosingIfEmpty
    rw [hid]
    split <;> rfl
  have hpersisted : (r.removeParticipant participant).runtime.persisted = r.runtime.persisted := by
    unfold Room.removeParticipant Room.scheduleClosingIfEmpty
    split <;> rfl
  have hdoc : (r.removeParticipant participant).runtime.doc = r.runtime.doc := by
    unfold Room.removeParticipant Room.scheduleClosingIfEmpty
    split <;> rfl
  have hopen : r.runtime.state ≠ .closed →
      (r.removeParticipant participant).runtime.state ≠ .closed := by
    unfold Room.removeParticipant Room.scheduleClosingIfEmpty
    intro hstate
    split
    · exact RuntimeState.noConfusion
    · exact hstate
  have hseat : ∀ other sink, (r.removeParticipant participant).Seat other sink ↔
      other ≠ deviceId ∧ r.Seat other sink := by
    intro other sink
    unfold Room.Seat
    rw [hparticipants]
    constructor
    · rintro ⟨each, hmem, rfl, rfl⟩
      obtain ⟨hmem, hne⟩ := Table.mem_erase_iff.mp hmem
      exact ⟨hne, each, hmem, rfl, rfl⟩
    · rintro ⟨hne, each, hmem, rfl, rfl⟩
      exact ⟨each, Table.mem_erase_iff.mpr ⟨hmem, hne⟩, rfl, rfl⟩
  refine ⟨rfl, ⟨?_, ?_, ?_⟩, ?_, ?_, ⟨?_, hdoc, ?_⟩⟩
  · rw [hpersisted]
    exact h.nextSeq
  · exact fun other sink hother => h.sinks other sink ((hseat other sink).mp hother).2
  · rintro other ⟨sink, hother⟩
    obtain ⟨hactive, hstate⟩ := h.opened other ⟨sink, ((hseat other sink).mp hother).2⟩
    rw [hpersisted]
    exact ⟨hactive, hopen hstate⟩
  · rintro ⟨sink, hother⟩
    exact ((hseat deviceId sink).mp hother).1 rfl
  · intro other hne
    exact exists_congr fun sink => (hseat other sink).trans (and_iff_right hne)
  · rw [hpersisted]
  · rw [hpersisted]

omit [SemilatticeSup D] [OrderBot D] in
theorem leave_leaves (h : Hosts r) {roomEpoch : ℕ}
    (hcurrent : r.Has deviceId → roomEpoch = r.runtime.persisted.epoch) :
    LeavesRoom r deviceId (r.leave deviceId roomEpoch) := by
  have hstays : ¬ r.Has deviceId → ∀ result,
      LeavesRoom r deviceId { result, room := r, sent := [] } := fun hnot result =>
    ⟨rfl, h, hnot, fun _ _ => Iff.rfl, ⟨rfl, rfl, rfl⟩⟩
  unfold Room.leave
  by_cases hhas : r.Has deviceId
  · obtain ⟨participant, hget⟩ := has_iff.mp hhas
    rw [rejectIfStale_of_has h hhas (hcurrent hhas)]
    dsimp only
    rw [Room.requireParticipant_eq_ok_iff.mpr hget]
    exact leaves_removeParticipant h (Table.key_of_get? hget) _
  · obtain ⟨e, hrequired⟩ := requireParticipant_of_not_has hhas
    split
    · next sent hstale =>
      rw [nil_of_rejectIfStale hhas hstale]
      exact hstays hhas _
    · rw [hrequired]
      exact hstays hhas _

/-! #### Editing -/

/-- An update is merged, acknowledged, and relayed to the others. -/
structure Merges (r : Room D) (deviceId : String) (updateId : ℕ) (update : D)
    (outcome : Outcome D Unit) : Prop where
  result : outcome.result = .ok ()
  goesOn : r.GoesOn outcome.room
  doc : outcome.room.runtime.doc = r.runtime.doc ⊔ update
  nextSeq : outcome.room.runtime.persisted.nextSeq = r.runtime.persisted.nextSeq + 1
  sent : ∃ sink relayed, r.Seat deviceId sink ∧
    outcome.sent = (sink, .yjsAck r.runtime.persisted.epoch updateId r.runtime.persisted.nextSeq) ::
      relayed ∧
    r.Announces (some deviceId) (.yjsUpdate r.runtime.persisted.epoch r.runtime.persisted.nextSeq
      update (some deviceId)) relayed

omit [SemilatticeSup D] [OrderBot D] in
theorem announces_relay {t : Room D} (h : Hosts r) (hbehind : r.NoneBehind busy)
    (hseats : ∀ other sink, t.Seat other sink ↔ r.Seat other sink) {source : String}
    (hsource : source = deviceId) {message relayed : RoomMessage D} (hmessage : relayed = message) :
    r.Announces (some deviceId) message (t.relay busy source relayed) := by
  subst hsource hmessage
  refine ⟨?_, ?_, ?_⟩
  · intro each heach
    obtain ⟨participant, -, rfl⟩ := List.mem_map.mp heach
    rfl
  · intro other sink hseat hne
    obtain ⟨participant, hmem, rfl, rfl⟩ := (hseats other sink).mpr hseat
    refine List.mem_map.mpr ⟨participant, List.mem_filter.mpr ⟨hmem, ?_⟩, rfl⟩
    have hready := hbehind _ _ hseat
    have hother : participant.deviceId ≠ source := fun hid => hne (congrArg some hid)
    simp [hready, hother]
  · rintro other ⟨⟩ each heach
    obtain ⟨participant, hmem, rfl⟩ := List.mem_map.mp heach
    obtain ⟨hmem, hkeep⟩ := List.mem_filter.mp hmem
    have hsink := h.sinks _ _ ((hseats _ _).mp ⟨participant, hmem, rfl, rfl⟩)
    show participant.sink.deviceId ≠ source
    rw [hsink]
    exact (of_decide_eq_true hkeep).1

/-- The participants stay when an update is counted. -/
theorem seat_counted {participant : Participant}
    (hget : r.runtime.participants.get? deviceId = some participant) (room : RoomConfig D)
    (now : ℕ) (other : String) (sink : RoomSink) :
    (r.withParticipant (Room.checkRateLimit room now participant).1).Seat other sink ↔
      r.Seat other sink := by
  have hid : participant.deviceId = deviceId := Table.key_of_get? hget
  rw [seat_withParticipant, Room.checkRateLimit_fst]
  dsimp only
  split
  · next hother =>
    rw [hother]
    constructor
    · rintro rfl
      exact ⟨participant, Table.mem_of_get? hget, rfl, rfl⟩
    · rintro ⟨each, hmem, heach, rfl⟩
      -- Two participants with one device id are one.
      obtain rfl := Table.eq_of_key_eq (Table.mem_of_get? hget) hmem heach.symm
      rfl
  · exact Iff.rfl

theorem acceptUpdate_room (room : RoomConfig D) (busy : RoomSink → Bool) (now : ℕ) (userId : String)
    (s : Room D) (participant : Participant) (updateId : ℕ) (update : D) :
    (s.acceptUpdate room busy now participant userId updateId update).room.runtime
      = { s.runtime with
          doc := s.runtime.doc ⊔ update
          persisted := (s.acceptUpdate room busy now participant userId updateId
            update).room.runtime.persisted } ∧
    (s.acceptUpdate room busy now participant userId updateId update).room.runtime.persisted.epoch
      = s.runtime.persisted.epoch ∧
    (s.acceptUpdate room busy now participant userId updateId update).room.runtime.persisted.active
      = s.runtime.persisted.active ∧
    (s.acceptUpdate room busy now participant userId updateId update).room.runtime.persisted.nextSeq
      = s.runtime.persisted.nextSeq + 1 := by
  unfold Room.acceptUpdate
  dsimp only
  split <;> exact ⟨rfl, rfl, rfl, rfl⟩

theorem handleUpdate_merges (h : Hosts r) (hbehind : r.NoneBehind busy) (hhas : r.Has deviceId)
    {roomEpoch : ℕ} (updateId : ℕ) {update : D} (hcurrent : roomEpoch = r.runtime.persisted.epoch)
    (hadmits : Admits room r now deviceId userId update) :
    Merges r deviceId updateId update
      (r.handleUpdate room busy now deviceId userId roomEpoch updateId update) := by
  obtain ⟨participant, hget⟩ := has_iff.mp hhas
  obtain ⟨hwrite, hlimit⟩ := hadmits.participant participant hget
  have hid : participant.deviceId = deviceId := Table.key_of_get? hget
  have hrole : ∃ role, requireRole room.vaultId deviceId userId true r.data = .ok role := by
    have hok := hadmits.role
    cases hrequired : requireRole room.vaultId deviceId userId true r.data with
    | ok role => exact ⟨role, rfl⟩
    | error e =>
      rw [hrequired] at hok
      exact absurd hok Bool.noConfusion
  have hallowed : Room.UpdateAllowed room now deviceId userId roomEpoch update r participant :=
    ⟨hrole, hadmits.size, rejectIfStale_of_has h hhas hcurrent, hget, hwrite, hlimit⟩
  set counted := (Room.checkRateLimit room now participant).1 with hcounted
  have hcountedId : counted.deviceId = deviceId := by
    rw [hcounted, Room.checkRateLimit_fst]
    exact hid
  have hcountedSink : counted.sink = participant.sink := by
    rw [hcounted, Room.checkRateLimit_fst]
  rw [Room.handleUpdate_of_allowed hallowed, ← hcounted]
  obtain ⟨hruntime, hepoch, hactive, hnextSeq⟩ := acceptUpdate_room room busy now userId
    (r.withParticipant counted) counted updateId update
  have hseats : ∀ other sink, ((r.withParticipant counted).acceptUpdate room busy now counted userId
      updateId update).room.Seat other sink ↔ r.Seat other sink := by
    intro other sink
    refine Iff.trans ?_ (seat_counted hget room now other sink)
    unfold Room.Seat
    rw [hruntime]
  refine ⟨rfl, ⟨hseats, hepoch, hactive, ?_⟩, ?_, hnextSeq, counted.sink, _, ?_, rfl, ?_⟩
  · rw [hruntime]
    exact id
  · rw [hruntime]
    rfl
  · exact ⟨participant, Table.mem_of_get? hget, hid, hcountedSink.symm⟩
  · exact announces_relay h hbehind hseats hcountedId (by rw [hcountedId]; rfl)

theorem handleUpdate_of_not_has (hnot : ¬ r.Has deviceId) (room : RoomConfig D)
    (busy : RoomSink → Bool) (now : ℕ) (userId : String) (roomEpoch updateId : ℕ) (update : D) :
    (r.handleUpdate room busy now deviceId userId roomEpoch updateId update).room = r ∧
      (r.handleUpdate room busy now deviceId userId roomEpoch updateId update).sent = [] := by
  obtain ⟨e, hrequired⟩ := requireParticipant_of_not_has hnot
  unfold Room.handleUpdate
  split
  · exact ⟨rfl, rfl⟩
  split
  · exact ⟨rfl, rfl⟩
  split
  · next sent hstale => exact ⟨rfl, nil_of_rejectIfStale hnot hstale⟩
  · rw [hrequired]
    exact ⟨rfl, rfl⟩

end

end

end ObsidianSync
