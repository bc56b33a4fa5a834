import ObsidianSync.Client.Messages
import ObsidianSync.Lib.Run
import ObsidianSync.Shared.Json

/-!
# The transport

The client talks to the server over one web socket at a time, and opens another when it
closes.  A socket that was replaced still has events to come, and its handlers act on the
transport as those of the current one do.

A socket can stop being open before its transport is told: where the server begins the closing
handshake, the socket is closing from then on, and its close event comes when it is closed.

What the listeners do when they are told a state or given a message are calls of their
own; only the messages they send when the socket has opened come before the queued ones.

## Main definitions

* `parseServerMessage` — what is checked of a message of the server.
* `SyncTransport` — the transport with the sockets it has made.
* `SyncTransport.connect`, `close`, `send`, `onOpen`, `onMessage`, `onClose`, … — its methods
  and the handlers of its sockets.
* `TransportRun`, `transportStep` — calls and events in any order.
* `TellsTruth`, `StaysClosed` — the state shows whether the current socket is open, and
  a closed transport makes no sockets.
* `Uncontradicted` — no message is sent while the transport is closed, no event comes from
  a socket that was replaced and contradicts the current one, and the server does not begin to
  close the open one.

## Main results

* `tellsTruth_iff_uncontradicted` — **both hold at every step of exactly the uncontradicted runs.**
-/

namespace ObsidianSync

open Engine (TransportState)

/-! ### Messages of the server -/

/-- What is checked of a field. -/
inductive FieldCheck
  | string
  | number
  | boolean
  | array
  | nullableString
  /-- An object with a field that passes a check of its own. -/
  | record (key : String) (check : FieldCheck)

/-- Whether a field is there and passes its check. -/
def FieldCheck.passes : FieldCheck → Option Json → Bool
  | .string, some (.str _) => true
  | .number, some (.num _) => true
  | .boolean, some (.bool _) => true
  | .array, some (.arr _) => true
  | .nullableString, some .null => true
  | .nullableString, some (.str _) => true
  | .record key check, some (.obj fields) => check.passes (Json.field (.obj fields) key)
  | _, _ => false

/-- The fields each type of message must have. -/
def serverMessageFields : String → Option (List (String × FieldCheck))
  | "welcome" => some [("serverTime", .number), ("currentSeq", .number),
      ("serverProtocol", .number), ("minClientProtocol", .number), ("capabilities", .array)]
  | "ops" => some [("ops", .array), ("more", .boolean)]
  | "op_ack" => some [("opId", .string), ("vaultSeq", .number),
      ("resultingClocks", .record "epoch" .number)]
  | "blob_upload_url" => some [("hash", .string), ("url", .nullableString),
      ("alreadyExists", .boolean)]
  | "conflict" => some [("conflict", .record "conflictId" .string)]
  | "conflict_state" => some [("conflictId", .string), ("status", .string)]
  | "room_state" => some [("fileId", .string), ("roomEpoch", .number), ("yjsSnapshot", .string),
      ("stateVector", .string)]
  | "yjs_update" => some [("fileId", .string), ("roomEpoch", .number), ("seq", .number),
      ("update", .string)]
  | "yjs_ack" => some [("fileId", .string), ("roomEpoch", .number), ("updateId", .number),
      ("seq", .number)]
  | "yjs_awareness" => some [("fileId", .string), ("roomEpoch", .number), ("from", .string),
      ("state", .string)]
  | "room_closed" => some [("fileId", .string), ("roomEpoch", .number), ("reason", .string)]
  | "manifest_page" => some [("watermarkSeq", .number), ("items", .array),
      ("nextCursor", .nullableString)]
  | "content" => some [("hash", .string), ("data", .nullableString)]
  | "trash_list" => some [("items", .array)]
  | "history_list" => some [("requestId", .string), ("fileId", .string), ("versions", .array),
      ("more", .boolean)]
  | "history_version" => some [("requestId", .string), ("fileId", .string),
      ("versionId", .string), ("text", .string)]
  | "history_restored" => some [("requestId", .string), ("fileId", .string),
      ("versionId", .string), ("text", .string)]
  | "error" => some [("code", .string), ("message", .string)]
  | "reject" => some [("code", .string), ("message", .string)]
  | _ => none

/-- Whether the message has the fields of its type, with the error of the check. -/
def validateServerMessage (t : String) (parsed : Json) : Except String Unit :=
  match serverMessageFields t with
  | none => .error ("Unsupported server message type: " ++ t)
  | some fields =>
    if fields.all fun field => field.2.passes (parsed.field field.1) then .ok ()
    else .error ("Invalid " ++ t ++ " message")

/-- The type of a message that passes the checks, with the message.  `jsonParse` is
`JSON.parse`. -/
def parseServerMessage (jsonParse : String → Except String Json) (raw : String) :
    Except String (String × Json) :=
  match jsonParse raw with
  | .error e => .error e
  | .ok parsed =>
    match parsed.field "t" with
    | some (.str t) =>
      match validateServerMessage t parsed with
      | .error e => .error e
      | .ok _ => .ok (t, parsed)
    | _ => .error "Invalid server message envelope"

/-! ### Sockets -/

/-- `WebSocket.readyState`. -/
inductive ReadyState
  | connecting
  | opened
  | closing
  | closed
  deriving DecidableEq, Repr

/-- A web socket, with what was sent on it. -/
structure WebSocket (M : Type) where
  readyState : ReadyState := .connecting
  sent : List M := []

namespace WebSocket

variable {M : Type}

/-- The connection is there, unless the socket is being closed. -/
def established (socket : WebSocket M) : WebSocket M :=
  if socket.readyState = .connecting then { socket with readyState := .opened } else socket

/-- `socket.close()`. -/
def close (socket : WebSocket M) : WebSocket M :=
  if socket.readyState = .connecting ∨ socket.readyState = .opened then
    { socket with readyState := .closing }
  else socket

/-- The server has begun the closing handshake, which calls no handler. -/
def closing (socket : WebSocket M) : WebSocket M :=
  if socket.readyState = .opened then { socket with readyState := .closing } else socket

/-- The connection is gone. -/
def lost (socket : WebSocket M) : WebSocket M := { socket with readyState := .closed }

/-- `socket.send(message)`. -/
def send (message : M) (socket : WebSocket M) : WebSocket M :=
  { socket with sent := socket.sent ++ [message] }

@[simp] theorem readyState_send (message : M) (socket : WebSocket M) :
    (socket.send message).readyState = socket.readyState := rfl

@[simp] theorem opened_established {socket : WebSocket M} :
    socket.established.readyState = .opened ↔
      socket.readyState = .connecting ∨ socket.readyState = .opened := by
  unfold established
  split <;> simp [*]

@[simp] theorem not_opened_close (socket : WebSocket M) : socket.close.readyState ≠ .opened := by
  unfold close
  split
  · simp
  · next h => exact fun hopened => h (Or.inr hopened)

@[simp] theorem not_opened_closing (socket : WebSocket M) :
    socket.closing.readyState ≠ .opened := by
  unfold closing
  split
  · simp
  · assumption

@[simp] theorem readyState_lost (socket : WebSocket M) : socket.lost.readyState = .closed := rfl

end WebSocket

/-! ### The transport -/

/-- The bounds of the delay before a transport connects again. -/
structure ReconnectOptions where
  minDelayMs : ℕ := 500
  maxDelayMs : ℕ := 30000

/-- The transport, with the sockets it has made, the current one by its position. -/
structure SyncTransport (M : Type) where
  socket : Option ℕ := none
  pendingMessages : List M := []
  /-- The delay the timer was set to. -/
  reconnectTimer : Option ℕ := none
  stopped : Bool := false
  state : TransportState := .closed
  attempt : ℕ := 0
  sockets : List (WebSocket M) := []

namespace SyncTransport

variable {M : Type} (t : SyncTransport M)

/-- What becomes of one of the sockets. -/
def onSocket (i : ℕ) (f : WebSocket M → WebSocket M) : SyncTransport M :=
  { t with sockets := t.sockets.modify i f }

/-- The `readyState` of a socket. -/
def readyState (i : ℕ) : Option ReadyState := (t.sockets[i]?).map WebSocket.readyState

/-- Whether the current socket is open. -/
def isOpen : Bool := t.socket.any fun i => t.readyState i = some .opened

/-- A new socket, unless there is one or the transport takes itself to be connected. -/
def connect : SyncTransport M :=
  let t := { t with stopped := false }
  if t.socket.isSome || t.state = .connecting || t.state = .opened then t
  else
    { t with
      state := .connecting
      socket := some t.sockets.length
      sockets := t.sockets ++ [{}] }

/-- The owner closes the transport: no socket, no timer. -/
def close : SyncTransport M :=
  let t := { t with stopped := true, reconnectTimer := none }
  let t := t.socket.elim t fun i => t.onSocket i WebSocket.close
  { t with socket := none, state := .closed }

/-- A message goes out on an open socket, and else waits for the next one. -/
def send (message : M) : SyncTransport M :=
  match t.socket with
  | some i =>
    if t.readyState i = some .opened then t.onSocket i (WebSocket.send message)
    else connect { t with pendingMessages := t.pendingMessages ++ [message] }
  | none => connect { t with pendingMessages := t.pendingMessages ++ [message] }

/-- Messages sent one after the other. -/
def sendAll (messages : List M) : SyncTransport M := messages.foldl send t

/-- The timer of the next connection, unless one is set. -/
def scheduleReconnect (options : ReconnectOptions) : SyncTransport M :=
  if t.reconnectTimer.isSome then t
  else
    { t with
      attempt := t.attempt + 1
      reconnectTimer := some (min options.maxDelayMs (options.minDelayMs * 2 ^ t.attempt)) }

/-- `socket.onopen`.  Told that the socket has opened, the listeners send the greeting. -/
def onOpen (i : ℕ) (greeting : List M) : SyncTransport M :=
  let t := { t.onSocket i WebSocket.established with attempt := 0 }
  let told := if t.state = .opened then t else sendAll { t with state := .opened } greeting
  sendAll { told with pendingMessages := [] } told.pendingMessages

/-- `socket.onmessage`. -/
def onMessage (jsonParse : String → Except String Json) (data : String) : SyncTransport M :=
  match parseServerMessage jsonParse data with
  | .error _ => t
  | .ok message => if message.1 = "welcome" then { t with state := .ready } else t

/-- `socket.onerror`. -/
def onError (i : ℕ) : SyncTransport M := t.onSocket i WebSocket.close

/-- `socket.onclose`. -/
def onClose (options : ReconnectOptions) (i : ℕ) : SyncTransport M :=
  let t := t.onSocket i WebSocket.lost
  let t := { t with socket := if t.socket = some i then none else t.socket, state := .closed }
  if t.stopped then t else t.scheduleReconnect options

/-- The callback of the timer. -/
def onTimer : SyncTransport M :=
  match t.reconnectTimer with
  | none => t
  | some _ => connect { t with reconnectTimer := none }

end SyncTransport

/-! ### Runs -/

/-- A call of the owner, an event of a socket or of the timer, or the server beginning to close
a socket. -/
inductive TransportEvent (M : Type)
  | connect
  | close
  | send (message : M)
  | opened (i : ℕ) (greeting : List M)
  | message (i : ℕ) (data : String)
  | error (i : ℕ)
  | closing (i : ℕ)
  | closed (i : ℕ)
  | timer

/-- What the transport runs on. -/
structure TransportConfig where
  options : ReconnectOptions := {}
  jsonParse : String → Except String Json

/-- The transport, and whether its owner has closed it and not connected again. -/
structure TransportRun (M : Type) where
  transport : SyncTransport M := {}
  closedByOwner : Bool := false

section

variable {M : Type} (cfg : TransportConfig)

/-- What a call or an event does to the transport. -/
def SyncTransport.step (t : SyncTransport M) : TransportEvent M → SyncTransport M
  | .connect => t.connect
  | .close => t.close
  | .send message => t.send message
  | .opened i greeting => t.onOpen i greeting
  | .message _ data => t.onMessage cfg.jsonParse data
  | .error i => t.onError i
  | .closing i => t.onSocket i WebSocket.closing
  | .closed i => t.onClose cfg.options i
  | .timer => t.onTimer

/-- A step of the transport, with the calls of its owner remembered. -/
def transportStep (r : TransportRun M) (e : TransportEvent M) : TransportRun M where
  transport := r.transport.step cfg e
  closedByOwner :=
    match e with
    | .connect => false
    | .close => true
    | _ => r.closedByOwner

/-- The current socket is open exactly where the state is `open` or `ready`. -/
def TellsTruth (t : SyncTransport M) : Prop :=
  t.isOpen = true ↔ t.state = .opened ∨ t.state = .ready

/-- A transport that its owner has closed makes no socket until the owner connects again. -/
def StaysClosed (r : TransportRun M) : TransportEvent M → Prop
  | .connect => True
  | e => r.closedByOwner = true →
    (r.transport.step cfg e).sockets.length = r.transport.sockets.length

/-- After the step the state tells the truth, and in the step a closed transport stays so. -/
def KeepsPromise (r : TransportRun M) (e : TransportEvent M) : Prop :=
  TellsTruth (transportStep cfg r e).transport ∧ StaysClosed cfg r e

/-- The message of the event is a welcome. -/
def IsWelcome (data : String) : Prop :=
  ∃ parsed, parseServerMessage cfg.jsonParse data = .ok ("welcome", parsed)

/-- No message is sent while the transport is closed, and no event contradicts the current
socket: it opens itself, or what opens and welcomes comes while it is open; it has no error and
the server does not begin to close it while it is open, and another one closes only while it is
not. -/
def Uncontradicted (r : TransportRun M) : TransportEvent M → Prop
  | .send _ => r.closedByOwner = false
  | .opened i _ => r.transport.isOpen = true ∨
    r.transport.socket = some i ∧ r.transport.readyState i = some .connecting
  | .message _ data => IsWelcome cfg data → r.transport.isOpen = true
  | .error i | .closing i => r.transport.socket = some i → r.transport.isOpen = false
  | .closed i => r.transport.socket = some i ∨ r.transport.isOpen = false
  | .connect | .close | .timer => True

/-! ### What a call changes -/

/-- Two transports with the same state, and sockets in the same states. -/
structure Alike (t u : SyncTransport M) : Prop where
  state : u.state = t.state
  socket : u.socket = t.socket
  readyStates : u.sockets.map WebSocket.readyState = t.sockets.map WebSocket.readyState

variable {t u : SyncTransport M} {r : TransportRun M} {i : ℕ}

theorem Alike.refl (t : SyncTransport M) : Alike t t := ⟨rfl, rfl, rfl⟩

theorem Alike.trans {w : SyncTransport M} (h : Alike t u) (h' : Alike u w) : Alike t w :=
  ⟨h'.state.trans h.state, h'.socket.trans h.socket, h'.readyStates.trans h.readyStates⟩

theorem Alike.readyState (h : Alike t u) (i : ℕ) : u.readyState i = t.readyState i := by
  simp only [SyncTransport.readyState, ← List.getElem?_map, h.readyStates]

theorem Alike.isOpen (h : Alike t u) : u.isOpen = t.isOpen := by
  simp only [SyncTransport.isOpen, h.socket, h.readyState]

theorem Alike.length (h : Alike t u) : u.sockets.length = t.sockets.length := by
  simpa using congrArg List.length h.readyStates

theorem Alike.tellsTruth_iff (h : Alike t u) : TellsTruth u ↔ TellsTruth t := by
  rw [TellsTruth, TellsTruth, h.isOpen, h.state]

theorem isOpen_iff : t.isOpen = true ↔ ∃ i, t.socket = some i ∧ t.readyState i = some .opened := by
  cases hsocket : t.socket <;> simp [SyncTransport.isOpen, hsocket]

theorem readyState_onSocket (t : SyncTransport M) (i j : ℕ) (f : WebSocket M → WebSocket M) :
    (t.onSocket i f).readyState j
      = if i = j then (t.sockets[j]?).map fun socket => (f socket).readyState
        else t.readyState j := by
  unfold SyncTransport.readyState SyncTransport.onSocket
  rw [List.getElem?_modify]
  split <;> simp [Function.comp_def]

/-- What is sent on a socket leaves it as it is. -/
theorem alike_onSocket_send (t : SyncTransport M) (i : ℕ) (message : M) :
    Alike t (t.onSocket i (WebSocket.send message)) := by
  refine ⟨rfl, rfl, ?_⟩
  apply List.ext_getElem?
  intro j
  have hsame := readyState_onSocket t i j (WebSocket.send message)
  rw [SyncTransport.readyState, ← List.getElem?_map] at hsame
  rw [hsame, List.getElem?_map]
  split
  · simp
  · rfl

/-- While the socket is open a message is sent on it. -/
theorem alike_send_of_isOpen (h : t.isOpen = true) (message : M) : Alike t (t.send message) := by
  obtain ⟨i, hsocket, hopened⟩ := isOpen_iff.mp h
  rw [SyncTransport.send, hsocket]
  dsimp only
  rw [if_pos hopened]
  exact alike_onSocket_send t i message

/-- Else it waits, and the transport connects. -/
theorem send_of_not_isOpen (h : t.isOpen = false) (message : M) :
    t.send message
      = SyncTransport.connect { t with pendingMessages := t.pendingMessages ++ [message] } := by
  unfold SyncTransport.send
  split
  · next i hsocket =>
    rw [if_neg]
    intro hopened
    rw [isOpen_iff.mpr ⟨i, hsocket, hopened⟩] at h
    exact Bool.noConfusion h
  · rfl

theorem alike_connect_of_opened (h : t.state = .opened) : Alike t t.connect := by
  unfold SyncTransport.connect
  dsimp only
  rw [if_pos (by simp [h])]
  exact ⟨rfl, rfl, rfl⟩

/-- Where the state is `open`, a message that cannot be sent waits. -/
theorem alike_send_of_opened (h : t.state = .opened) (message : M) : Alike t (t.send message) := by
  cases hopen : t.isOpen with
  | true => exact alike_send_of_isOpen hopen message
  | false =>
    rw [send_of_not_isOpen hopen]
    have hwaits : Alike t { t with pendingMessages := t.pendingMessages ++ [message] } :=
      ⟨rfl, rfl, rfl⟩
    exact hwaits.trans (alike_connect_of_opened h)

theorem alike_sendAll_of_opened (messages : List M) (h : t.state = .opened) :
    Alike t (t.sendAll messages) := by
  induction messages generalizing t with
  | nil => exact .refl t
  | cons message messages ih =>
    have hfirst := alike_send_of_opened h message
    exact hfirst.trans (ih (hfirst.state.trans h))

/-- An opened socket makes the state `open`, whichever it is. -/
theorem alike_onOpen (t : SyncTransport M) (i : ℕ) (greeting : List M) :
    Alike { t.onSocket i WebSocket.established with state := .opened } (t.onOpen i greeting) := by
  -- the transport when the listeners have been told
  have htold : ∀ told : SyncTransport M,
      Alike { t.onSocket i WebSocket.established with state := .opened } told →
      Alike { t.onSocket i WebSocket.established with state := .opened }
        (SyncTransport.sendAll { told with pendingMessages := [] } told.pendingMessages) := by
    intro told h
    have hcleared : Alike told { told with pendingMessages := [] } := ⟨rfl, rfl, rfl⟩
    exact h.trans (hcleared.trans (alike_sendAll_of_opened _ h.state))
  refine htold _ ?_
  split
  · next hopened => exact ⟨hopened, rfl, rfl⟩
  · have hset : Alike { t.onSocket i WebSocket.established with state := .opened }
        { t.onSocket i WebSocket.established with attempt := 0, state := .opened } :=
      ⟨rfl, rfl, rfl⟩
    exact hset.trans (alike_sendAll_of_opened greeting rfl)

/-! ### The steps -/

/-- A transport without a socket, and without a timer that would make one. -/
structure Shut (t : SyncTransport M) : Prop where
  socket : t.socket = none
  state : t.state = .closed
  reconnectTimer : t.reconnectTimer = none
  stopped : t.stopped = true

/-- What holds in uncontradicted runs. -/
structure Truthful (r : TransportRun M) : Prop where
  truth : TellsTruth r.transport
  shut : r.closedByOwner = true → Shut r.transport

theorem Truthful.not_isOpen (h : Truthful r) (hclosed : r.closedByOwner = true) :
    r.transport.isOpen = false := by
  simp [SyncTransport.isOpen, (h.shut hclosed).socket]

theorem Truthful.not_closed (h : Truthful r) (hopen : r.transport.isOpen = true) :
    r.closedByOwner = false := by
  rw [← Bool.not_eq_true]
  intro hclosed
  simp [h.not_isOpen hclosed] at hopen

theorem tellsTruth_of_closed (hstate : t.state = .closed) :
    TellsTruth t ↔ t.isOpen = false := by
  simp [TellsTruth, hstate]

theorem tellsTruth_of_told (hstate : t.state = .opened ∨ t.state = .ready) :
    TellsTruth t ↔ t.isOpen = true := by
  simp [TellsTruth, hstate]

/-- A new socket is not open yet. -/
theorem tellsTruth_connect (h : TellsTruth t) : TellsTruth t.connect := by
  unfold SyncTransport.connect
  dsimp only
  split
  · exact h
  · simp [TellsTruth, SyncTransport.isOpen, SyncTransport.readyState]

theorem tellsTruth_close (t : SyncTransport M) : TellsTruth t.close :=
  (tellsTruth_of_closed rfl).mpr rfl

theorem tellsTruth_send (h : TellsTruth t) (message : M) : TellsTruth (t.send message) := by
  cases hopen : t.isOpen with
  | true => exact (alike_send_of_isOpen hopen message).tellsTruth_iff.mpr h
  | false =>
    rw [send_of_not_isOpen hopen]
    exact tellsTruth_connect h

theorem tellsTruth_onOpen_iff (greeting : List M) :
    TellsTruth (t.onOpen i greeting) ↔
      t.isOpen = true ∨ t.socket = some i ∧ t.readyState i = some .connecting := by
  rw [(alike_onOpen t i greeting).tellsTruth_iff, tellsTruth_of_told (Or.inl rfl), isOpen_iff,
    isOpen_iff]
  have hestablished : ∀ j, (t.onSocket i WebSocket.established).readyState j = some .opened ↔
      t.readyState j = some .opened ∨ i = j ∧ t.readyState j = some .connecting := by
    intro j
    rw [readyState_onSocket, SyncTransport.readyState]
    split
    · next h =>
      cases t.sockets[j]? with
      | none => simp
      | some socket => simp [h, or_comm]
    · next h => simp [h]
  constructor
  · rintro ⟨j, hsocket, hopened⟩
    rcases (hestablished j).mp hopened with hopened | ⟨rfl, hconnecting⟩
    · exact Or.inl ⟨j, hsocket, hopened⟩
    · exact Or.inr ⟨hsocket, hconnecting⟩
  · rintro (⟨j, hsocket, hopened⟩ | ⟨hsocket, hconnecting⟩)
    · exact ⟨j, hsocket, (hestablished j).mpr (Or.inl hopened)⟩
    · exact ⟨i, hsocket, (hestablished i).mpr (Or.inr ⟨rfl, hconnecting⟩)⟩

theorem tellsTruth_onMessage_iff (h : TellsTruth t) (data : String) :
    TellsTruth (t.onMessage cfg.jsonParse data) ↔ (IsWelcome cfg data → t.isOpen = true) := by
  unfold SyncTransport.onMessage IsWelcome
  cases hparse : parseServerMessage cfg.jsonParse data with
  | error e => simpa using h
  | ok message =>
    obtain ⟨kind, parsed⟩ := message
    dsimp only
    split
    · next hwelcome =>
      subst hwelcome
      rw [tellsTruth_of_told (Or.inr rfl)]
      exact ⟨fun hopen _ => hopen, fun hopen => hopen ⟨parsed, rfl⟩⟩
    · next hother =>
      refine iff_of_true h ?_
      rintro ⟨parsed', hsame⟩
      rw [Except.ok.injEq, Prod.mk.injEq] at hsame
      exact absurd hsame.1 hother

/-- What happens to another socket. -/
theorem isOpen_onSocket_of_ne (h : t.socket ≠ some i) (f : WebSocket M → WebSocket M) :
    (t.onSocket i f).isOpen = t.isOpen := by
  rw [Bool.eq_iff_iff, isOpen_iff, isOpen_iff]
  refine exists_congr fun j => and_congr_right fun hsocket => ?_
  have hne : i ≠ j := by
    rintro rfl
    exact h hsocket
  rw [readyState_onSocket, if_neg hne]

/-- The current socket does not stay open. -/
theorem isOpen_onSocket_of_shut (h : t.socket = some i) {f : WebSocket M → WebSocket M}
    (hf : ∀ socket, (f socket).readyState ≠ .opened) : (t.onSocket i f).isOpen = false := by
  rw [← Bool.not_eq_true, isOpen_iff]
  rintro ⟨j, hsocket, hopened⟩
  obtain rfl : i = j := Option.some.inj (h.symm.trans hsocket)
  rw [readyState_onSocket, if_pos rfl] at hopened
  obtain ⟨socket, -, hclosing⟩ := Option.map_eq_some_iff.mp hopened
  exact hf socket hclosing

/-- The state stays what it is where a socket does not stay open. -/
theorem tellsTruth_onSocket_iff (h : TellsTruth t) {f : WebSocket M → WebSocket M}
    (hf : ∀ socket, (f socket).readyState ≠ .opened) :
    TellsTruth (t.onSocket i f) ↔ (t.socket = some i → t.isOpen = false) := by
  by_cases hsocket : t.socket = some i
  · have hshut : (t.onSocket i f).isOpen = false := isOpen_onSocket_of_shut hsocket hf
    have hstate : (t.onSocket i f).state = t.state := rfl
    rw [TellsTruth] at h
    rw [TellsTruth, hshut, hstate, ← h]
    simp [hsocket]
  · have hsame : (t.onSocket i f).isOpen = t.isOpen := isOpen_onSocket_of_ne hsocket _
    refine iff_of_true ?_ fun h => absurd h hsocket
    rw [TellsTruth, hsame]
    exact h

theorem alike_scheduleReconnect (t : SyncTransport M) (options : ReconnectOptions) :
    Alike t (t.scheduleReconnect options) := by
  unfold SyncTransport.scheduleReconnect
  split
  · exact .refl t
  · exact ⟨rfl, rfl, rfl⟩

theorem alike_onClose (t : SyncTransport M) (options : ReconnectOptions) (i : ℕ) :
    Alike { t.onSocket i WebSocket.lost with
      socket := if t.socket = some i then none else t.socket
      state := .closed } (t.onClose options i) := by
  unfold SyncTransport.onClose
  dsimp only
  by_cases hstopped : (t.onSocket i WebSocket.lost).stopped = true
  · rw [if_pos hstopped]
    exact ⟨rfl, rfl, rfl⟩
  · rw [if_neg hstopped]
    exact alike_scheduleReconnect _ options

theorem tellsTruth_onClose_iff (options : ReconnectOptions) :
    TellsTruth (t.onClose options i) ↔ t.socket = some i ∨ t.isOpen = false := by
  rw [(alike_onClose t options i).tellsTruth_iff, tellsTruth_of_closed rfl]
  by_cases hsocket : t.socket = some i
  · simp [SyncTransport.isOpen, hsocket]
  · simp only [hsocket, false_or]
    have hsame := isOpen_onSocket_of_ne hsocket WebSocket.lost
    rw [← hsame]
    rfl

theorem tellsTruth_onTimer (h : TellsTruth t) : TellsTruth t.onTimer := by
  unfold SyncTransport.onTimer
  split
  · exact h
  · exact tellsTruth_connect h

/-- A message that is sent while the transport is closed opens a socket. -/
theorem length_send_of_closed (h : Truthful r) (hclosed : r.closedByOwner = true) (message : M) :
    (r.transport.send message).sockets.length = r.transport.sockets.length + 1 := by
  rw [send_of_not_isOpen (h.not_isOpen hclosed)]
  have hshut := h.shut hclosed
  simp [SyncTransport.connect, hshut.socket, hshut.state]

theorem onTimer_of_closed (h : Truthful r) (hclosed : r.closedByOwner = true) :
    r.transport.onTimer = r.transport := by
  simp [SyncTransport.onTimer, (h.shut hclosed).reconnectTimer]

/-- **A step keeps both promises exactly when it is uncontradicted.** -/
theorem keepsPromise_iff (h : Truthful r) (e : TransportEvent M) :
    KeepsPromise cfg r e ↔ Uncontradicted cfg r e := by
  -- `send` alone may make a socket while closed, the other events only leave a wrong state
  cases e with
  | connect => exact iff_of_true ⟨tellsTruth_connect h.truth, trivial⟩ trivial
  | close =>
    refine iff_of_true ⟨tellsTruth_close _, fun hclosed => ?_⟩ trivial
    show r.transport.close.sockets.length = r.transport.sockets.length
    simp [SyncTransport.close, (h.shut hclosed).socket]
  | send message =>
    constructor
    · rintro ⟨-, hstays⟩
      by_contra hclosed
      rw [Uncontradicted, Bool.not_eq_false] at hclosed
      have hlength := hstays hclosed
      have hgrows := length_send_of_closed h hclosed message
      rw [SyncTransport.step] at hlength
      omega
    · intro hopen
      refine ⟨tellsTruth_send h.truth message, fun hclosed => ?_⟩
      rw [Uncontradicted] at hopen
      exact absurd (hopen.symm.trans hclosed) Bool.noConfusion
  | opened i greeting =>
    have hlength : (r.transport.onOpen i greeting).sockets.length = r.transport.sockets.length :=
      (alike_onOpen r.transport i greeting).length.trans (by simp [SyncTransport.onSocket])
    rw [KeepsPromise, and_iff_left (show StaysClosed cfg r (.opened i greeting) from
      fun _ => hlength)]
    exact tellsTruth_onOpen_iff greeting
  | message i data =>
    have hlength : (r.transport.onMessage cfg.jsonParse data).sockets.length
        = r.transport.sockets.length := by
      unfold SyncTransport.onMessage
      repeat' split
      all_goals rfl
    rw [KeepsPromise, and_iff_left (show StaysClosed cfg r (.message i data) from
      fun _ => hlength)]
    exact tellsTruth_onMessage_iff cfg h.truth data
  | error i =>
    rw [KeepsPromise, and_iff_left (show StaysClosed cfg r (.error i) from
      fun _ => List.length_modify _ _ _)]
    exact tellsTruth_onSocket_iff h.truth WebSocket.not_opened_close
  | closing i =>
    rw [KeepsPromise, and_iff_left (show StaysClosed cfg r (.closing i) from
      fun _ => List.length_modify _ _ _)]
    exact tellsTruth_onSocket_iff h.truth WebSocket.not_opened_closing
  | closed i =>
    have hlength : (r.transport.onClose cfg.options i).sockets.length
        = r.transport.sockets.length :=
      (alike_onClose r.transport cfg.options i).length.trans (by simp [SyncTransport.onSocket])
    rw [KeepsPromise, and_iff_left (show StaysClosed cfg r (.closed i) from fun _ => hlength)]
    exact tellsTruth_onClose_iff cfg.options
  | timer =>
    refine iff_of_true ⟨tellsTruth_onTimer h.truth, fun hclosed => ?_⟩ trivial
    exact congrArg (fun t => t.sockets.length) (onTimer_of_closed h hclosed)

theorem shut_close (t : SyncTransport M) : Shut t.close := by
  refine ⟨rfl, rfl, ?_, ?_⟩ <;>
    cases hsocket : t.socket <;> simp [SyncTransport.close, SyncTransport.onSocket, hsocket]

/-- A stopped transport does not reconnect. -/
theorem shut_onClose (h : Shut t) (options : ReconnectOptions) (i : ℕ) :
    Shut (t.onClose options i) := by
  have hstopped : (t.onSocket i WebSocket.lost).stopped = true := h.stopped
  unfold SyncTransport.onClose
  dsimp only
  rw [if_pos hstopped]
  refine ⟨?_, rfl, h.reconnectTimer, h.stopped⟩
  show (if t.socket = some i then none else t.socket) = none
  simp [h.socket]

/-- A transport that its owner has closed is left as it is, but for the sockets it had. -/
theorem truthful_transportStep (h : Truthful r) {e : TransportEvent M}
    (he : Uncontradicted cfg r e) : Truthful (transportStep cfg r e) := by
  refine ⟨((keepsPromise_iff cfg h e).mpr he).1, ?_⟩
  cases e with
  | connect => exact fun hclosed => absurd hclosed Bool.false_ne_true
  | close => exact fun _ => shut_close r.transport
  | send message => exact fun hclosed => absurd (he.symm.trans hclosed) Bool.false_ne_true
  | opened i greeting =>
    intro hclosed
    have hcurrent := (h.shut hclosed).socket
    rcases he with hopen | ⟨hsocket, -⟩
    · exact absurd ((h.not_closed hopen).symm.trans hclosed) Bool.false_ne_true
    · simp [hcurrent] at hsocket
  | message i data =>
    intro hclosed
    have hother : ¬ IsWelcome cfg data := by
      intro hwelcome
      exact absurd ((h.not_closed (he hwelcome)).symm.trans hclosed) Bool.false_ne_true
    have hsame : r.transport.onMessage cfg.jsonParse data = r.transport := by
      unfold SyncTransport.onMessage
      split
      · rfl
      next message hparse =>
      obtain ⟨kind, parsed⟩ := message
      rw [if_neg]
      rintro rfl
      exact hother ⟨parsed, hparse⟩
    show Shut (r.transport.onMessage cfg.jsonParse data)
    rw [hsame]
    exact h.shut hclosed
  | error i | closing i =>
    intro hclosed
    obtain ⟨hsocket, hstate, htimer, hstopped⟩ := h.shut hclosed
    exact ⟨hsocket, hstate, htimer, hstopped⟩
  | closed i => exact fun hclosed => shut_onClose (h.shut hclosed) cfg.options i
  | timer =>
    intro hclosed
    show Shut r.transport.onTimer
    rw [onTimer_of_closed h hclosed]
    exact h.shut hclosed

theorem truthful_initial : Truthful ({} : TransportRun M) where
  truth := (tellsTruth_of_closed rfl).mpr rfl
  shut hclosed := absurd hclosed Bool.false_ne_true

/-- **A transport tells the truth and stays closed at every step of exactly the uncontradicted
runs.** -/
theorem tellsTruth_iff_uncontradicted (es : List (TransportEvent M)) :
    Run.EachStep (transportStep cfg) (KeepsPromise cfg) {} es ↔
      Run.EachStep (transportStep cfg) (Uncontradicted cfg) {} es :=
  Run.eachStep_iff_of_invariant (A := fun _ _ => True)
    (fun _ e h _ he => truthful_transportStep cfg h ((keepsPromise_iff cfg h e).mp he))
    (fun _ e h _ => keepsPromise_iff cfg h e) truthful_initial
    (Run.eachStep_of_forall (fun _ _ => trivial) _ es)

end

/-! ### A close that comes late -/

/-- A transport without messages from the server. -/
def sampleTransport : TransportConfig where
  jsonParse _ := .error "Unexpected end of JSON input"

/-- A transport is paused and resumed, and the first socket closes after the second opened. -/
def sampleResumed : List (TransportEvent String) :=
  [.connect, .opened 0 ["hello"], .close, .connect, .opened 1 ["hello"], .closed 0]

/-- A transport is paused, and a message is sent. -/
def sampleSentPaused : List (TransportEvent String) :=
  [.connect, .opened 0 ["hello"], .close, .send "claim_conflict"]

/-- The server closes the connection of a transport that is ready. -/
def sampleServerCloses : List (TransportEvent String) :=
  [.connect, .opened 0 ["hello"], .closing 0, .closed 0]

/-- The resumed transport says `closed` on an open socket; the paused one opens a socket; and
the last one says `open` until the close event comes. -/
theorem not_keepsPromise_resumed :
    ¬ Run.EachStep (transportStep sampleTransport) (KeepsPromise sampleTransport) {}
        sampleResumed ∧
      ¬ Run.EachStep (transportStep sampleTransport) (KeepsPromise sampleTransport) {}
        sampleSentPaused ∧
      ¬ Run.EachStep (transportStep sampleTransport) (KeepsPromise sampleTransport) {}
        sampleServerCloses := by
  refine ⟨?_, ?_, ?_⟩
  · rintro ⟨-, -, -, -, -, ⟨h, -⟩, -⟩
    revert h
    unfold TellsTruth
    decide +kernel
  · rintro ⟨-, -, -, ⟨-, h⟩, -⟩
    revert h
    unfold StaysClosed
    decide +kernel
  · rintro ⟨-, -, ⟨h, -⟩, -⟩
    revert h
    unfold TellsTruth
    decide +kernel

end ObsidianSync
