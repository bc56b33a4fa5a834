import ObsidianSync.Room.Calls
import ObsidianSync.Room.HandOff

/-!
# The server with all its rooms

The rooms of the notes share the data store with the op processor and the conflict
service, and nothing else.

## Main definitions

* `SyncServer`, `SyncEvent`, `syncStep` — the data store with the rooms of all notes, each call
  on a room as one step.
-/

namespace ObsidianSync

/-! ### All rooms -/

/-- A room as it is stored and, if it is, in memory. -/
structure RoomState (D : Type) where
  roomStore : YjsRoomStore D := {}
  runtime : Option (RuntimeRoom D) := none

/-- The server: the data store, and the rooms by vault and file. -/
structure SyncServer (D : Type) where
  data : Store
  rooms : String × String → RoomState D := fun _ => {}

/-- The server as the calls on one room see it. -/
def SyncServer.room {D : Type} (s : SyncServer D) (vaultId fileId : String) : RoomServer D :=
  { data := s.data
    roomStore := (s.rooms (vaultId, fileId)).roomStore
    runtime := (s.rooms (vaultId, fileId)).runtime }

/-- What happens: a call on the op processor, the conflict service or the rows, or a call on
the room of a note. -/
inductive SyncEvent (D : Type)
  | server (event : ServerEvent)
  | room (vaultId fileId : String) (event : RoomEvent D)

section

variable {D : Type} [SemilatticeSup D] [OrderBot D]

/-- What the rooms run on, for one of them. -/
def RoomConfig.ofNote (cfg : RoomConfig D) (vaultId fileId : String) : RoomConfig D :=
  { cfg with vaultId, fileId }

/-- The server after a call. -/
def syncStep (cfg : RoomConfig D) (s : SyncServer D) : SyncEvent D → SyncServer D
  | .server event => { s with data := serverStep cfg.platform s.data event }
  | .room vaultId fileId event =>
    let t := roomStep (cfg.ofNote vaultId fileId) (s.room vaultId fileId) event
    { data := t.data
      rooms := Function.update s.rooms (vaultId, fileId)
        { roomStore := t.roomStore, runtime := t.runtime } }

end

end ObsidianSync
