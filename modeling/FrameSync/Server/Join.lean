import FrameSync.Directory
import FrameSync.Room.Registry

/-!
# Joining a room

A join reads and writes two stores, the directory and the rooms, and holds only one of them at a
time. `JoinTask` is a join in progress, `JoinTask.step` the part of it that runs while one store
is held: find the player and its current room, look at that room, find the wanted room, enter it,
record it. `join` runs all parts of one join without interruption; `Joins` lets the parts of
several joins run in any order.
-/

set_option autoImplicit false

namespace FrameSync

open Wire

namespace Server

/-- How far a join has come: nothing has been looked at; the player is registered and was in the
given room; that room does not stand in the way; the wanted room exists; the player is a member of
it; or the join is over. -/
inductive JoinStage where
  | asked
  | identified (current : Option RoomId)
  | allowed
  | located
  | entered (outcome : Room.Joined)
  | answered (result : Except LobbyCode Room.Joined)

/-- A join in progress: who wants to join which room, and how far it has come. -/
structure JoinTask where
  player : PlayerId
  room : RoomId
  stage : JoinStage

namespace JoinTask

/-- A join that has not begun. -/
def new (player : PlayerId) (room : RoomId) : JoinTask := ⟨player, room, .asked⟩

/-- The number of parts of a join. -/
def parts : Nat := 5

/-- Run the next part of a join. -/
def step (t : JoinTask) (d : Directory) (r : Registry) : JoinTask × Directory × Registry :=
  match t.stage with
  | .asked =>
    if d.contains t.player then ({ t with stage := .identified (d.roomOf t.player) }, d, r)
    else ({ t with stage := .answered (.error .playerNotFound) }, d, r)
  | .identified current =>
    match current with
    | none => ({ t with stage := .allowed }, d, r)
    | some room =>
      if room = t.room then ({ t with stage := .allowed }, d, r)
      else
        match r.get room with
        | .error _ => ({ t with stage := .allowed }, d, r)
        | .ok slot =>
          if slot.room.phase = .closed then ({ t with stage := .allowed }, d, r)
          else ({ t with stage := .answered (.error .alreadyInRoom) }, d, r)
  | .allowed =>
    match r.get t.room with
    | .error e => ({ t with stage := .answered (.error e.lobbyCode) }, d, r)
    | .ok _ => ({ t with stage := .located }, d, r)
  | .located =>
    -- The room may have been closed and dropped since; the answer is that of a closed room.
    match r.get t.room with
    | .error e => ({ t with stage := .answered (.error e.lobbyCode) }, d, r)
    | .ok slot =>
      match slot.room.join t.player with
      | .error e => ({ t with stage := .answered (.error e.lobbyCode) }, d, r)
      | .ok (outcome, room) =>
        ({ t with stage := .entered outcome }, d, r.put t.room { slot with room })
  | .entered outcome =>
    match d.setRoom t.player (some t.room) with
    | .error _ => ({ t with stage := .answered (.error .playerNotFound) }, d, r)
    | .ok d' => ({ t with stage := .answered (.ok outcome) }, d', r)
  | .answered _ => (t, d, r)

/-- Run `n` parts one after the other. -/
def steps : Nat → JoinTask → Directory → Registry → JoinTask × Directory × Registry
  | 0, t, d, r => (t, d, r)
  | n + 1, t, d, r =>
    let (t', d', r') := t.step d r
    steps n t' d' r'

/-- The answer of a join that is over. -/
def result? (t : JoinTask) : Option (Except LobbyCode Room.Joined) :=
  match t.stage with
  | .answered result => some result
  | _ => none

end JoinTask

/-- A whole join without interruption. -/
def join (d : Directory) (r : Registry) (player : PlayerId) (room : RoomId) :
    Except LobbyCode Room.Joined × Directory × Registry :=
  let (t, d', r') := (JoinTask.new player room).steps JoinTask.parts d r
  (t.result?.getD (.error .roomNotFound), d', r')

/-- Several joins, in progress or over, over the same directory and rooms. -/
structure Joins where
  tasks : List JoinTask
  directory : Directory
  registry : Registry

namespace Joins

/-- The next part of the `i`-th join runs. -/
def step (j : Joins) (i : Nat) : Joins :=
  match j.tasks[i]? with
  | none => j
  | some t =>
    let (t', directory, registry) := t.step j.directory j.registry
    ⟨j.tasks.set i t', directory, registry⟩

/-- The parts run in the given order of joins. -/
def run (j : Joins) (order : List Nat) : Joins := order.foldl step j

end Joins

end Server

end FrameSync
