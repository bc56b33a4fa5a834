import ObsidianSync.Client.GapRecovery
import ObsidianSync.Lib.Relay

/-!
# Editing a note together

The devices that have a note open hold replicas of the document of its room.  What a session sends
goes to the server in the order it is sent in and is handled message by message; what the room
sends to a participant and what its socket is answered arrive at the session in the order they are
sent in.  Between these steps anything else may happen: the calls on the room by others, its
timers, what the other handlers do to the data store, and edits on the devices.

The connections stay, one for each device.

## Main definitions

* `Peer`, `Collaboration` — a device with what is on its way to it, and all of them with the room.
* `Collaboration.post`, `Collaboration.handleMessage`, `Peer.arrive` — how messages travel.
* `CollabEvent`, `collabStep` — what may happen.
* `Steady` — the condition under which the sessions converge.
* `Converges` — the participants hold what the room holds, and agree when nothing is on its way.
* `InTouch` — what a device and the room have of each other, in terms of `Relay`.

## Main results

* `replica_receive`, `outgoing_receive` — a session takes its messages as a replica does.
* `InTouch.member_of_session`, `InTouch.post` — who is a member, and what is sent to it.
-/

namespace ObsidianSync

/-- A device: its session of the note, and what the server has sent it. -/
structure Peer (D : Type) where
  manager : YjsSessionManager D := {}
  arriving : List (RoomMessage D) := []

/-- The room of a note, and the devices. -/
structure Collaboration (D : Type) where
  room : Room D
  peers : String → Peer D

/-- What happens on a device, on its socket, or on the server. -/
inductive CollabEvent (D : Type)
  | openFile (deviceId : String)
  | leaveFile (deviceId : String)
  | edit (deviceId : String) (update : D)
  | reconcileLayer1Content (deviceId : String) (clientID : ℕ) (text : String)
  | restored (deviceId : String) (clientID : ℕ) (text : String)
  | arrive (deviceId : String) (clientID : ℕ)
  | handleMessage (busy : RoomSink → Bool) (now clientID : ℕ) (deviceId userId : String)
  | heartbeat (busy : RoomSink → Bool) (now : ℕ) (deviceId : String)
  | layer1 (event : ServerEvent)
  | demote (busy : RoomSink → Bool) (now : ℕ) (uuid : Uuid) (deviceId : String)
  | closeDeleted (busy : RoomSink → Bool)
  | closingTimer (busy : RoomSink → Bool) (now : ℕ) (uuid : Uuid)
  | sweepExpired (busy : RoomSink → Bool) (now : ℕ) (uuid : Uuid)
  | closeAll (busy : RoomSink → Bool) (now : ℕ) (uuid : Uuid)
  | compact (now : ℕ) (throughSeq : Option ℕ)
  | restoreHistoryVersion (busy : RoomSink → Bool) (now : ℕ) (uuid : Uuid) (clientID : ℕ)
      (deviceId userId : String) (versionId : ℕ) (requestId : String)

/-- The socket of a device. -/
def sinkOf (deviceId : String) : RoomSink := { deviceId, connection := 0 }

/-- What of the messages is for a device. -/
def mail {D : Type} (deviceId : String) (sent : List (RoomSink × RoomMessage D)) :
    List (RoomMessage D) :=
  (sent.filter fun message => message.1.deviceId = deviceId).map Prod.snd

/-- What the socket is answered on what a call returns or throws. -/
def Outcome.answer {D α : Type} (outcome : Outcome D α) (deviceId : String)
    (reply : α → List (RoomMessage D)) : List (RoomSink × RoomMessage D) :=
  match outcome.result with
  | .ok result => (reply result).map fun message => (sinkOf deviceId, message)
  | .error e => [(sinkOf deviceId, .error e.toWire)]

namespace Collaboration

section

variable {D : Type} (c : Collaboration D)

/-- The collaboration with another state of a device. -/
def withPeer (deviceId : String) (peer : Peer D) : Collaboration D :=
  { c with peers := Function.update c.peers deviceId peer }

/-- A call of the session manager of a device. -/
def onDevice (deviceId : String) (call : YjsSessionManager D → YjsSessionManager D) :
    Collaboration D :=
  c.withPeer deviceId { c.peers deviceId with manager := call (c.peers deviceId).manager }

/-- Messages are sent on their sockets, except on those that are behind. -/
def post (busy : RoomSink → Bool) (sent : List (RoomSink × RoomMessage D)) : Collaboration D :=
  { c with peers := fun deviceId =>
      { c.peers deviceId with
        arriving := (c.peers deviceId).arriving ++
          mail deviceId (sent.filter fun message => !busy message.1) } }

/-- What comes of a call on the room. -/
def called {α : Type} (busy : RoomSink → Bool) (outcome : Outcome D α) : Collaboration D :=
  { c with room := outcome.room }.post busy outcome.sent

/-- What comes of a call on the room for a device, which is answered. -/
def calledFor {α : Type} (busy : RoomSink → Bool) (deviceId : String) (outcome : Outcome D α)
    (reply : α → List (RoomMessage D)) : Collaboration D :=
  (c.called busy outcome).post busy (outcome.answer deviceId reply)

end

end Collaboration

section

variable {D : Type} [SemilatticeSup D] [OrderBot D] (cfg : YjsConfig D) (room : RoomConfig D)

/-- The next message arrives. -/
def Peer.arrive (clientID : ℕ) (p : Peer D) : Peer D :=
  match p.arriving with
  | [] => p
  | message :: arriving => { manager := p.manager.receive cfg clientID message, arriving }

/-- The server handles the next message of a device. -/
def Collaboration.handleMessage (busy : RoomSink → Bool) (now clientID : ℕ)
    (deviceId userId : String) (c : Collaboration D) : Collaboration D :=
  match (c.peers deviceId).manager.outgoing with
  | [] => c
  | message :: outgoing =>
    let c := c.onDevice deviceId fun manager => { manager with outgoing }
    match message with
    | .promote =>
      c.calledFor busy deviceId (c.room.promote room now clientID deviceId userId 0)
        fun roomState => [roomState]
    | .leaveRoom roomEpoch =>
      c.calledFor busy deviceId (c.room.leave deviceId roomEpoch) fun _ => []
    | .yjsUpdate roomEpoch updateId update =>
      c.calledFor busy deviceId
        (c.room.handleUpdate room busy now deviceId userId roomEpoch updateId update) fun _ => []
    | .yjsSync roomEpoch stateVector =>
      c.calledFor busy deviceId (c.room.handleSync room deviceId roomEpoch stateVector) fun _ => []

/-- The room and its devices after an event. -/
def collabStep (c : Collaboration D) : CollabEvent D → Collaboration D
  | .openFile deviceId => c.onDevice deviceId fun m => m.openFile cfg
  | .leaveFile deviceId => c.onDevice deviceId fun m => m.leaveFile
  | .edit deviceId update => c.onDevice deviceId fun m => m.edit update
  | .reconcileLayer1Content deviceId clientID text =>
    c.onDevice deviceId fun m => m.reconcileLayer1Content cfg clientID text
  | .restored deviceId clientID text =>
    c.onDevice deviceId fun m => m.restoreHistoryVersion cfg clientID text
  | .arrive deviceId clientID =>
    c.withPeer deviceId ((c.peers deviceId).arrive cfg clientID)
  | .handleMessage busy now clientID deviceId userId =>
    c.handleMessage room busy now clientID deviceId userId
  | .heartbeat busy now deviceId =>
    match (c.peers deviceId).manager.session with
    | none => c
    | some session =>
      c.calledFor busy deviceId (c.room.heartbeat room now deviceId session.roomEpoch) fun _ => []
  | .layer1 event =>
    { c with room := { c.room with data := serverStep room.platform c.room.data event } }
  | .demote busy now uuid deviceId =>
    c.calledFor busy deviceId (c.room.demote room busy now uuid deviceId none .demoted) fun _ => []
  | .closeDeleted busy => c.called busy (c.room.closeDeleted room busy)
  | .closingTimer busy now uuid => c.called busy (c.room.closingTimer room busy now uuid)
  | .sweepExpired busy now uuid => c.called busy (c.room.sweepExpired room busy now uuid)
  | .closeAll busy now uuid => c.called busy (c.room.closeAll room busy now uuid .evicted)
  | .compact now throughSeq => c.called ready (c.room.compact room now throughSeq)
  | .restoreHistoryVersion busy now uuid clientID deviceId userId versionId requestId =>
    c.calledFor busy deviceId
      (c.room.restoreHistoryVersion room busy now uuid clientID deviceId userId versionId requestId)
      fun restored => [.historyRestored requestId versionId restored.text]

/-! ### The property -/

omit [SemilatticeSup D] [OrderBot D] in
/-- The device is a participant of the room, on the socket. -/
def Room.Seat (r : Room D) (deviceId : String) (sink : RoomSink) : Prop :=
  ∃ participant ∈ r.runtime.participants.rows,
    participant.deviceId = deviceId ∧ participant.sink = sink

omit [SemilatticeSup D] [OrderBot D] in

/-- A device is in the room. -/
def Room.Has (r : Room D) (deviceId : String) : Prop := ∃ sink, r.Seat deviceId sink

omit [SemilatticeSup D] [OrderBot D] in

/-- Whether a message asks for the room. -/
def YjsMessage.isPromote : YjsMessage D → Bool
  | .promote => true
  | _ => false

omit [SemilatticeSup D] [OrderBot D] in

/-- Whether a message leaves the room. -/
def YjsMessage.isLeave : YjsMessage D → Bool
  | .leaveRoom _ => true
  | _ => false

omit [SemilatticeSup D] [OrderBot D] in
/-- The incarnation that a message is for, if it names one. -/
def YjsMessage.epoch : YjsMessage D → Option ℕ
  | .promote => none
  | .leaveRoom roomEpoch => some roomEpoch
  | .yjsUpdate roomEpoch _ _ => some roomEpoch
  | .yjsSync roomEpoch _ => some roomEpoch

omit [SemilatticeSup D] [OrderBot D] in
/-- The update that is sent, if it is one. -/
def YjsMessage.update : YjsMessage D → Option D
  | .yjsUpdate _ _ update => some update
  | _ => none

/-- What a message brings to the room. -/
def YjsMessage.change (message : YjsMessage D) : D := message.update.getD ⊥

/-- What a message brings to a session. -/
def RoomMessage.change : RoomMessage D → D
  | .roomState _ yjsSnapshot => yjsSnapshot
  | .yjsUpdate _ _ update _ => update
  | _ => ⊥

namespace Peer

variable (p : Peer D)

/-- What the room gets from the device. -/
def unsent : D := p.manager.outgoing.foldr (fun message doc => message.change ⊔ doc) ⊥

/-- What the device gets from the room. -/
def incoming : D := p.arriving.foldr (fun message doc => message.change ⊔ doc) ⊥

/-- Nothing is on its way to or from the device. -/
def Idle : Prop := p.manager.outgoing = [] ∧ p.arriving = []

/-- A participant that is not about to leave. -/
def Member (r : Room D) (deviceId : String) : Prop :=
  r.Has deviceId ∧ ∀ message ∈ p.manager.outgoing, message.isLeave = false

end Peer

/-- The session of a device and the room have what the other has or what is on its way. -/
structure Replicates (r : Room D) (p : Peer D) (session : YjsSession D) : Prop where
  roomEpoch : session.roomEpoch = r.runtime.persisted.epoch
  le : session.doc ≤ r.runtime.doc ⊔ p.unsent
  ge : r.runtime.doc ≤ session.doc ⊔ p.incoming

/-- **The sessions of the participants replicate the room.**  They have nothing to ask for, and
two with nothing on its way are the same. -/
structure Converges (c : Collaboration D) : Prop where
  replicates : ∀ deviceId, (c.peers deviceId).Member c.room deviceId →
    ∀ session ∈ (c.peers deviceId).manager.session, Replicates c.room (c.peers deviceId) session
  agree : ∀ deviceId, (c.peers deviceId).Member c.room deviceId → (c.peers deviceId).Idle →
    ∃ session ∈ (c.peers deviceId).manager.session, session.doc = c.room.runtime.doc
  noGap : ∀ deviceId, ∀ message ∈ (c.peers deviceId).manager.outgoing, message.isSync = false

/-! ### The condition -/

/-- What is checked of an update of a participant. -/
structure Admits (r : Room D) (now : ℕ) (deviceId userId : String) (update : D) : Prop where
  role : (requireRole room.vaultId deviceId userId true r.data).isOk = true
  size : room.updateBytes update ≤ maxUpdateBytes
  participant : ∀ participant ∈ r.runtime.participants.get? deviceId,
    participant.role.canWrite = true ∧ (Room.checkRateLimit room now participant).2 = false

omit [SemilatticeSup D] [OrderBot D] in
/-- No socket of a participant is behind. -/
def Room.NoneBehind (r : Room D) (busy : RoomSink → Bool) : Prop :=
  ∀ deviceId sink, r.Seat deviceId sink → busy sink = false

omit [SemilatticeSup D] [OrderBot D] in
/-- No answer to a promotion is on its way. -/
def Peer.NotOpening (p : Peer D) : Prop :=
  (∀ message ∈ p.manager.outgoing, message.isPromote = false) ∧
    ∀ message ∈ p.arriving, ∀ roomEpoch yjsSnapshot, message ≠ .roomState roomEpoch yjsSnapshot

/-- No socket is behind, updates of participants are admitted, the file is not opened twice, and
nothing is written to a document that is not sent. -/
def Steady (c : Collaboration D) : CollabEvent D → Prop
  | .openFile deviceId =>
    (c.peers deviceId).manager.session = none → (c.peers deviceId).NotOpening
  | .reconcileLayer1Content deviceId clientID text =>
    (c.peers deviceId).manager.reconcileLayer1Content cfg clientID text = (c.peers deviceId).manager
  | .restored deviceId clientID text =>
    (c.peers deviceId).manager.restoreHistoryVersion cfg clientID text = (c.peers deviceId).manager
  | .handleMessage busy now _ deviceId userId =>
    c.room.NoneBehind busy ∧ busy (sinkOf deviceId) = false ∧
      ∀ message ∈ (c.peers deviceId).manager.outgoing.head?, ∀ update ∈ message.update,
        c.room.Has deviceId → Admits room c.room now deviceId userId update
  | .demote busy _ _ _ | .closeDeleted busy | .closingTimer busy _ _ | .sweepExpired busy _ _
  | .closeAll busy _ _ | .restoreHistoryVersion busy .. => c.room.NoneBehind busy
  | .leaveFile _ | .edit .. | .arrive .. | .heartbeat .. | .layer1 _ | .compact .. => True


variable {cfg room}

/-! ### Replicas -/

omit [SemilatticeSup D] [OrderBot D] in

/-- A session as a replica of the relay. -/
def YjsSession.replica (session : YjsSession D) : Relay.Replica D :=
  { epoch := session.roomEpoch, doc := session.doc, lastSeq := session.lastSeq }

omit [SemilatticeSup D] [OrderBot D] in

/-- A message of the room as one of the relay. -/
def RoomMessage.relayed : RoomMessage D → Relay.Message D
  | .roomState roomEpoch yjsSnapshot => .state roomEpoch yjsSnapshot
  | .yjsUpdate roomEpoch seq update _ => .update roomEpoch seq update
  | .yjsAck roomEpoch _ seq => .ack roomEpoch seq
  | .roomClosed roomEpoch _ _ => .closed roomEpoch
  | .historyRestored .. | .error _ => .notice

omit [SemilatticeSup D] [OrderBot D] in
/-- A message that opens the file again. -/
def RoomMessage.isStale : RoomMessage D → Bool
  | .roomClosed _ .epochStale _ => true
  | _ => false

omit [SemilatticeSup D] [OrderBot D] in

/-- The replica of a device, if it has a session. -/
def Peer.replica (p : Peer D) : Option (Relay.Replica D) :=
  p.manager.session.map YjsSession.replica

omit [SemilatticeSup D] [OrderBot D] in

/-- The messages of the relay on their way to a device. -/
def Peer.messages (p : Peer D) : List (Relay.Message D) := p.arriving.map RoomMessage.relayed

section

variable {m : YjsSessionManager D} {message : RoomMessage D} {clientID : ℕ}

omit [OrderBot D] in
theorem replica_localUpdate (session : YjsSession D) (update : D) :
    (session.localUpdate update).replica = session.replica.merge update := rfl

theorem replica_applyAck (session : YjsSession D) (roomEpoch updateId seq : ℕ) :
    (if roomEpoch = session.roomEpoch then session.applyAck cfg updateId seq else session).replica
      = session.replica.applyAck roomEpoch seq := by
  unfold Relay.Replica.applyAck YjsSession.applyAck
  by_cases hepoch : session.roomEpoch = roomEpoch
  · rw [if_pos hepoch.symm, if_pos (show session.replica.epoch = roomEpoch from hepoch)]
    dsimp only
    split <;> rfl
  · rw [if_neg (Ne.symm hepoch), if_neg (show ¬ session.replica.epoch = roomEpoch from hepoch)]

theorem replica_applyRelay (session : YjsSession D) (roomEpoch seq : ℕ) (update : D) :
    (if session.merges roomEpoch seq then session.applyRelay cfg seq update else session).replica
      = session.replica.applyUpdate roomEpoch seq update := by
  have hmerges : session.merges roomEpoch seq = true ↔
      session.replica.epoch = roomEpoch ∧ session.replica.Expects seq := by
    unfold YjsSession.merges Relay.Replica.Expects YjsSession.replica
    simp only [Bool.and_eq_true, Bool.or_eq_true, decide_eq_true_eq, and_assoc]
    exact and_congr_left' eq_comm
  unfold Relay.Replica.applyUpdate
  by_cases hexpects : session.replica.epoch = roomEpoch ∧ session.replica.Expects seq
  · rw [if_pos (hmerges.mpr hexpects), if_pos hexpects]
    rfl
  · rw [if_neg (hmerges.not.mpr hexpects), if_neg hexpects]

/-- A message does to a session what it does to a replica. -/
theorem replica_receive (h : m.session = none ∨ message.relayed.isState = false) :
    (m.receive cfg clientID message).session.map YjsSession.replica
      = Relay.take (m.session.map YjsSession.replica) message.relayed := by
  cases message with
  | roomState roomEpoch yjsSnapshot =>
    have hnone : m.session = none := h.resolve_right Bool.noConfusion
    simp only [YjsSessionManager.receive, YjsSessionManager.handleRoomState, hnone, Option.any_none,
      Bool.false_eq_true, if_false, Option.bind_none, carriedUpdate, RoomMessage.relayed,
      Relay.take, Option.map_none, Option.map_some]
    simp only [newSession, YjsSession.replica, bot_sup_eq]
  | yjsUpdate roomEpoch seq update source =>
    rw [YjsSessionManager.receive, session_handleYjsUpdate, Option.map_map]
    show _ = Option.map _ (Option.map _ m.session)
    rw [Option.map_map]
    exact Option.map_congr fun session _ => replica_applyRelay session roomEpoch seq update
  | yjsAck roomEpoch updateId seq =>
    rw [YjsSessionManager.receive, session_handleAck, Option.map_map]
    show _ = Option.map _ (Option.map _ m.session)
    rw [Option.map_map]
    exact Option.map_congr fun session _ => replica_applyAck session roomEpoch updateId seq
  | roomClosed roomEpoch reason finalHash =>
    show (m.handleRoomClosed cfg roomEpoch reason).session.map YjsSession.replica
      = (m.session.map YjsSession.replica).filter fun replica => replica.epoch ≠ roomEpoch
    rw [session_handleRoomClosed]
    cases m.session with
    | none => rfl
    | some session =>
      by_cases hepoch : roomEpoch = session.roomEpoch
      · simp [Option.filter, YjsSession.replica, hepoch]
      · simp [Option.filter, YjsSession.replica, hepoch, Ne.symm hepoch]
  | historyRestored requestId versionId text => rfl
  | error error => rfl

/-- A session that misses nothing sends nothing. -/
theorem outgoing_receive (h : m.session = none ∨ message.relayed.isState = false)
    (hmisses : ∀ replica ∈ m.session.map YjsSession.replica,
      ¬ replica.MissesBefore message.relayed) (hstale : message.isStale = false) :
    (m.receive cfg clientID message).outgoing = m.outgoing := by
  cases message with
  | roomState roomEpoch yjsSnapshot =>
    have hnone : m.session = none := h.resolve_right Bool.noConfusion
    simp only [YjsSessionManager.receive, YjsSessionManager.handleRoomState, hnone, Option.any_none,
      Bool.false_eq_true, if_false, Option.bind_none, carriedUpdate]
  | yjsUpdate roomEpoch seq update source =>
    show (m.handleYjsUpdate cfg roomEpoch seq update).outgoing = m.outgoing
    unfold YjsSessionManager.handleYjsUpdate
    split
    · rfl
    next session hsession =>
    split
    · rfl
    next hepoch =>
    split
    · rfl
    split
    · next hgap =>
      refine absurd ⟨?_, hgap.1, hgap.2⟩ (hmisses session.replica (by rw [hsession]; rfl))
      exact (not_not.mp hepoch).symm
    · rfl
  | yjsAck roomEpoch updateId seq =>
    show (m.handleAck cfg roomEpoch updateId seq).outgoing = m.outgoing
    unfold YjsSessionManager.handleAck
    repeat' split
    all_goals rfl
  | roomClosed roomEpoch reason finalHash =>
    have hreason : reason ≠ .epochStale := by
      rintro rfl
      exact absurd hstale Bool.noConfusion
    show (m.handleRoomClosed cfg roomEpoch reason).outgoing = m.outgoing
    unfold YjsSessionManager.handleRoomClosed
    rw [if_neg hreason]
    repeat' split
    all_goals rfl
  | historyRestored requestId versionId text => rfl
  | error error => rfl

end

/-! ### What is on its way -/

section

variable {p : Peer D} {deviceId : String}

theorem foldr_sup_append {α : Type} (f : α → D) (xs ys : List α) :
    (xs ++ ys).foldr (fun x d => f x ⊔ d) ⊥
      = xs.foldr (fun x d => f x ⊔ d) ⊥ ⊔ ys.foldr (fun x d => f x ⊔ d) ⊥ := by
  induction xs with
  | nil => exact (bot_sup_eq _).symm
  | cons x xs ih => rw [List.cons_append, List.foldr_cons, List.foldr_cons, ih, sup_assoc]

theorem unsent_send (m : YjsSessionManager D) (message : YjsMessage D)
    (arriving : List (RoomMessage D)) :
    Peer.unsent { manager := m.send message, arriving }
      = Peer.unsent { manager := m, arriving } ⊔ message.change := by
  unfold Peer.unsent YjsSessionManager.send
  rw [foldr_sup_append, List.foldr_cons, List.foldr_nil, sup_bot_eq]

theorem held_messages (p : Peer D) : Relay.held p.messages = p.incoming := by
  unfold Relay.held Peer.messages Peer.incoming
  rw [List.foldr_map]
  refine congrArg (fun f => List.foldr f ⊥ p.arriving) ?_
  funext message doc
  cases message <;> rfl

omit [SemilatticeSup D] [OrderBot D] in
/-- The sessions that are there, asked for, or on their way. -/
def Peer.openings (p : Peer D) : ℕ :=
  (if p.manager.session.isSome then 1 else 0) + p.manager.outgoing.countP YjsMessage.isPromote +
    p.messages.countP Relay.Message.isState

/-- The messages of a device and of the room: there is one session at most, and no other is on its
way; a promotion is sent last; a session is left before the next one; the messages of a participant
are for the incarnation, and it asks for nothing. -/
structure Queued (r : Room D) (deviceId : String) (p : Peer D) : Prop where
  openings : p.openings ≤ 1
  promotesLast : ∀ message ∈ p.manager.outgoing.dropLast, message.isPromote = false
  leaving : (∃ message ∈ p.manager.outgoing, message.isLeave = true) →
    p.manager.session = none ∧ ∀ message ∈ p.messages, message.isState = false
  current : r.Has deviceId → ∀ message ∈ p.manager.outgoing, ∀ epoch ∈ message.epoch,
    epoch = r.runtime.persisted.epoch
  noGap : ∀ message ∈ p.manager.outgoing, message.isSync = false
  notStale : ∀ message ∈ p.arriving, message.isStale = false

/-- What a device and the room have of each other. -/
structure InTouch (r : Room D) (deviceId : String) (p : Peer D) : Prop
    extends Queued r deviceId p where
  follows : p.Member r deviceId → Relay.Follows r.runtime.persisted.epoch
    (r.runtime.doc ⊔ p.unsent) (r.runtime.persisted.nextSeq - 1) p.replica p.messages
  absent : ¬ p.Member r deviceId → Relay.Absent p.replica p.messages

section

variable {r r' : Room D} {session : YjsSession D} {more : List (RoomMessage D)}

omit [SemilatticeSup D] [OrderBot D] in
theorem messages_append (manager : YjsSessionManager D) (arriving more : List (RoomMessage D)) :
    Peer.messages { manager, arriving := arriving ++ more }
      = Peer.messages { manager, arriving } ++ more.map RoomMessage.relayed := List.map_append

namespace Queued

omit [SemilatticeSup D] [OrderBot D] in
theorem stateless (h : Queued r deviceId p) (hsession : p.manager.session = some session) :
    ∀ message ∈ p.messages, message.isState = false := by
  have hopenings := h.openings
  unfold Peer.openings at hopenings
  rw [hsession, Option.isSome_some, if_pos rfl] at hopenings
  have hnone : p.messages.countP Relay.Message.isState = 0 := by omega
  intro message hmessage
  exact Bool.eq_false_iff.mpr (List.countP_eq_zero.mp hnone message hmessage)

omit [SemilatticeSup D] [OrderBot D] in
theorem notOpening (h : Queued r deviceId p) (hsession : p.manager.session = some session) :
    ∀ message ∈ p.manager.outgoing, message.isPromote = false := by
  have hopenings := h.openings
  unfold Peer.openings at hopenings
  rw [hsession, Option.isSome_some, if_pos rfl] at hopenings
  have hnone : p.manager.outgoing.countP YjsMessage.isPromote = 0 := by omega
  intro message hmessage
  exact Bool.eq_false_iff.mpr (List.countP_eq_zero.mp hnone message hmessage)

omit [SemilatticeSup D] [OrderBot D] in
theorem of_promote (h : Queued r deviceId p)
    (hpromote : ∃ message ∈ p.manager.outgoing, message.isPromote = true) :
    p.manager.session = none ∧ ∀ message ∈ p.messages, message.isState = false := by
  have hopenings := h.openings
  have hpos : 0 < p.manager.outgoing.countP YjsMessage.isPromote := List.countP_pos_iff.mpr hpromote
  unfold Peer.openings at hopenings
  cases hsession : p.manager.session with
  | some session =>
    rw [hsession, Option.isSome_some, if_pos rfl] at hopenings
    omega
  | none =>
    have hnone : p.messages.countP Relay.Message.isState = 0 := by omega
    exact ⟨rfl, fun message hmessage =>
      Bool.eq_false_iff.mpr (List.countP_eq_zero.mp hnone message hmessage)⟩

omit [SemilatticeSup D] [OrderBot D] in
/-- The server takes a message. -/
theorem tail (h : Queued r deviceId p) {message : YjsMessage D} {outgoing : List (YjsMessage D)}
    (hout : p.manager.outgoing = message :: outgoing) :
    Queued r deviceId { p with manager := { p.manager with outgoing } } := by
  have hmem : ∀ each ∈ outgoing, each ∈ p.manager.outgoing := by
    intro each heach
    rw [hout]
    exact List.mem_cons_of_mem _ heach
  refine ⟨?_, ?_, ?_, ?_, fun each heach => h.noGap each (hmem each heach), h.notStale⟩
  · have hopenings := h.openings
    unfold Peer.openings at hopenings ⊢
    rw [hout, List.countP_cons] at hopenings
    show (if p.manager.session.isSome then 1 else 0) + outgoing.countP YjsMessage.isPromote +
      p.messages.countP Relay.Message.isState ≤ 1
    omega
  · intro each heach
    refine h.promotesLast each ?_
    rw [hout]
    cases outgoing with
    | nil => exact absurd heach List.not_mem_nil
    | cons next rest => exact List.mem_cons_of_mem _ heach
  · rintro ⟨each, heach, hleave⟩
    exact h.leaving ⟨each, hmem each heach, hleave⟩
  · intro hhas each heach
    exact h.current hhas each (hmem each heach)

omit [SemilatticeSup D] [OrderBot D] in
/-- What the room sends makes no session, unless it is its state. -/
theorem post (h : Queued r deviceId p) (hstates : ∀ message ∈ more, message.relayed.isState = false)
    (hstale : ∀ message ∈ more, message.isStale = false)
    (hhas : r'.Has deviceId →
      r.Has deviceId ∧ r'.runtime.persisted.epoch = r.runtime.persisted.epoch) :
    Queued r' deviceId { p with arriving := p.arriving ++ more } := by
  have hmore : ∀ message ∈ more.map RoomMessage.relayed, message.isState = false := by
    intro message hmessage
    obtain ⟨sent, hsent, rfl⟩ := List.mem_map.mp hmessage
    exact hstates sent hsent
  refine ⟨?_, h.promotesLast, ?_, ?_, h.noGap, ?_⟩
  · have hnone : (more.map RoomMessage.relayed).countP Relay.Message.isState = 0 :=
      List.countP_eq_zero.mpr fun message hmessage =>
        Bool.eq_false_iff.mp (hmore message hmessage)
    unfold Peer.openings
    rw [messages_append, List.countP_append, hnone]
    exact h.openings
  · intro hleave
    obtain ⟨hsession, hstateless⟩ := h.leaving hleave
    refine ⟨hsession, fun message hmessage => ?_⟩
    rw [messages_append] at hmessage
    exact (List.mem_append.mp hmessage).elim (hstateless message) (hmore message)
  · intro hnow message hmessage epoch hepoch
    obtain ⟨hbefore, hsame⟩ := hhas hnow
    exact (h.current hbefore message hmessage epoch hepoch).trans hsame.symm
  · intro message hmessage
    exact (List.mem_append.mp hmessage).elim (h.notStale message) (hstale message)

end Queued

namespace InTouch

/-- Where there is no session, and none on its way, the device is not a member. -/
theorem not_member (h : InTouch r deviceId p) (hsession : p.manager.session = none)
    (hstates : ∀ message ∈ p.messages, message.isState = false) : ¬ p.Member r deviceId := by
  intro hmember
  obtain ⟨replica, htaken, -⟩ := (h.follows hmember).taken
  have hreplica : p.replica = none := by rw [Peer.replica, hsession, Option.map_none]
  rw [hreplica, Relay.taken_none hstates] at htaken
  exact absurd htaken.symm (Option.some_ne_none _)

/-- A participant with a session is a member, and the session is one of the incarnation. -/
theorem member_of_session (h : InTouch r deviceId p) (hhas : r.Has deviceId)
    (hsession : p.manager.session = some session) :
    p.Member r deviceId ∧ session.roomEpoch = r.runtime.persisted.epoch := by
  have hmember : p.Member r deviceId := by
    refine ⟨hhas, fun message hmessage => Bool.eq_false_iff.mpr fun hleave => ?_⟩
    have hnone := (h.leaving ⟨message, hmessage, hleave⟩).1
    rw [hsession] at hnone
    exact absurd hnone (Option.some_ne_none _)
  have hfollows := h.follows hmember
  have hreplica : p.replica = some session.replica := by rw [Peer.replica, hsession]; rfl
  rw [hreplica] at hfollows
  exact ⟨hmember, (hfollows.doc_le (h.stateless hsession)).2⟩

/-- Something is sent on the socket. -/
theorem post (h : InTouch r deviceId p)
    (hstates : ∀ message ∈ more, message.relayed.isState = false)
    (hstale : ∀ message ∈ more, message.isStale = false)
    (hhas : r'.Has deviceId →
      r.Has deviceId ∧ r'.runtime.persisted.epoch = r.runtime.persisted.epoch)
    (hstays : p.Member r deviceId → r'.Has deviceId →
      Relay.Follows r'.runtime.persisted.epoch (r'.runtime.doc ⊔ p.unsent)
        (r'.runtime.persisted.nextSeq - 1) p.replica (p.messages ++ more.map RoomMessage.relayed))
    (hgoes : p.Member r deviceId → ¬ r'.Has deviceId →
      Relay.Absent p.replica (p.messages ++ more.map RoomMessage.relayed)) :
    InTouch r' deviceId { p with arriving := p.arriving ++ more } := by
  refine ⟨h.toQueued.post hstates hstale hhas, fun hmember => ?_, fun hnot => ?_⟩
  · rw [messages_append]
    exact hstays ⟨(hhas hmember.1).1, hmember.2⟩ hmember.1
  · rw [messages_append]
    by_cases hmember : p.Member r deviceId
    · exact hgoes hmember fun hnow => hnot ⟨hnow, hmember.2⟩
    · refine (h.absent hmember).append fun message hmessage => ?_
      obtain ⟨sent, hsent, rfl⟩ := List.mem_map.mp hmessage
      exact hstates sent hsent

end InTouch

end

end

end

end ObsidianSync
