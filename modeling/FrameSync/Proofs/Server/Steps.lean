import FrameSync.Proofs.Directory
import FrameSync.Proofs.Room.Ticking
import FrameSync.Server.Run

/-!
# What one event does to a server

Most of handling an event is reading bodies and writing answers; what stays are the directory and
the rooms. `Change` lists what a single event can do to these two, one constructor for each way it
can go, with the conditions under which the handler goes that way. `change_step` says that there is
nothing else, so whatever holds of the two in every state is shown by one case for each constructor.

An event reaches at most one room, except that time passes for all of them, and that closed ones are
dropped together.
-/

set_option autoImplicit false

namespace FrameSync

open Wire

namespace Server

/-- The request with which an event binds a battle connection to a player. -/
def Event.connect? : Event → Option (ConnId × ConnectRequest)
  | .battle conn p =>
    match BattleCommand.ofByte p.command, readBody ConnectRequest p.payload with
    | .ok .connect, .ok request => some (conn, request)
    | _, _ => none
  | _ => none

/-- The request with which an event asks for a new room. -/
def Event.create? : Event → Option CreateRoomRequest
  | .lobby _ p =>
    match LobbyCommand.ofByte p.command, readBody CreateRoomRequest p.payload with
    | .ok .createRoom, .ok request => some request
    | _, _ => none
  | _ => none

/-- The request with which an event makes a player ready, and the connection it comes on. -/
def Event.ready? : Event → Option (ConnId × ReadyRequest)
  | .battle conn p =>
    match BattleCommand.ofByte p.command, readBody ReadyRequest p.payload with
    | .ok .ready, .ok request => some (conn, request)
    | _, _ => none
  | _ => none

/-- The rooms after something has happened to the one that a player has joined, if it is tracked. -/
def onRoomOf (d : Directory) (player : PlayerId) (f : Room.Slot → Room.Slot)
    (rooms : Table RoomId Room.Slot) : Table RoomId Room.Slot :=
  match d.roomOf player with
  | none => rooms
  | some id => rooms.update id f

/-- What an event does to the directory and to the rooms. On the lobby channel an account logs in; a
room is created, after the stopped ones have been dropped; a player joins a room, and is not in
another one that is open; or a connection is gone. On the battle channel a connection is bound, and
the player's entry follows it; a player is ready; it sends an input or an integrity value to its
room; or its connection is gone, and it is ready no more. A room is closed, the stopped ones are
dropped, every room is closed, or time passes. -/
inductive Change (s : Server) : Event → Directory → Table RoomId Room.Slot → Prop where
  | idle (e : Event) : Change s e s.directory s.registry.rooms
  | loggedIn (conn : ConnId) (p : Packet) (account : String) :
    Change s (.lobby conn p) (s.directory.login account conn).2 s.registry.rooms
  | created (conn : ConnId) (p : Packet) (request : CreateRoomRequest) :
    (Event.lobby conn p).create? = some request →
    s.directory.contains request.player = true →
    Change s (.lobby conn p) s.directory s.registry.reclaim.2.create.2.rooms
  | joined (conn : ConnId) (p : Packet) (player : PlayerId) (id : RoomId) (slot : Room.Slot)
      (room : Room) (outcome : Room.Joined) (d : Directory) :
    s.directory.contains player = true →
    (∀ other slot', s.directory.roomOf player = some other → other ≠ id →
      s.registry.rooms.get? other = some slot' → slot'.room.phase = .closed) →
    s.registry.rooms.get? id = some slot → slot.room.join player = .ok (outcome, room) →
    s.directory.setRoom player (some id) = .ok d →
    Change s (.lobby conn p) d (s.registry.rooms.update id fun _ => { slot with room })
  | lobbyLeft (conn : ConnId) :
    Change s (.lobbyDisconnected conn) (s.directory.unbindLobby conn).2 s.registry.rooms
  | bound (conn : ConnId) (p : Packet) (request : ConnectRequest) (replaced : Option ConnId)
      (d : Directory) :
    (Event.battle conn p).connect? = some (conn, request) →
    s.directory.bindBattle request.player conn = .ok (replaced, d) →
    Change s (.battle conn p) d
      (onRoomOf d request.player (fun slot => (slot.rebind request.player conn).2) s.registry.rooms)
  | readied (conn : ConnId) (p : Packet) (player : PlayerId) (id : RoomId) (slot slot' : Room.Slot)
      (outcome : Room.Readied) :
    (Event.battle conn p).ready? = some (conn, ⟨player, id⟩) →
    s.directory.playerByBattle conn = some player → s.registry.rooms.get? id = some slot →
    slot.room.becomeReady player conn s.now = .ok (outcome, slot'.room) →
    Change s (.battle conn p) s.directory (s.registry.rooms.update id fun _ => slot')
  | played (conn : ConnId) (p : Packet) (player : PlayerId) (id : RoomId) (slot : Room.Slot)
      (op : Room.Op) :
    s.directory.playerByBattle conn = some player → s.directory.roomOf player = some id →
    s.registry.rooms.get? id = some slot →
    ((∃ i, op = .input player i) ∨ ∃ c, op = .check player c) →
    Change s (.battle conn p) s.directory
      (s.registry.rooms.update id fun _ => { slot with room := (slot.room.apply op).2 })
  | battleLeft (conn : ConnId) (player : PlayerId) :
    s.directory.playerByBattle conn = some player →
    Change s (.battleDisconnected conn) (s.directory.unbindBattle conn).2
      (onRoomOf (s.directory.unbindBattle conn).2 player (fun slot => (slot.disconnect player).2)
        s.registry.rooms)
  | closed (id : RoomId) :
    Change s (.closeRoom id) s.directory (s.registry.rooms.update id Room.Slot.close)
  | reclaimed : Change s .reclaim s.directory s.registry.reclaim.2.rooms
  | shut : Change s .shutdownRooms s.directory (s.registry.rooms.mapValues Room.Slot.close)
  | passed (e : Event) (start target : Nat) :
    ((∃ ms, e = .sleep ms) ∨ ∃ ms, e = .jump ms) →
    Change s e s.directory
      (s.registry.rooms.mapValues fun slot => (slot.runTicker s.encoder start target).2)

/-! ## Answers leave the state alone -/

section Handled

variable {α : Type} [Body α] (s : Server)

@[simp] theorem silent_server : s.silent.server = s := rfl

@[simp] theorem sendAll_server (conns : List ConnId) (command : UInt8) (body : α) :
    (s.sendAll conns command body).server = s := by
  rw [sendAll]
  split <;> rfl

@[simp] theorem send_server (conn : ConnId) (command : UInt8) (body : α) :
    (s.send conn command body).server = s := sendAll_server s [conn] command body

@[simp] theorem announce_server (command : LobbyCommand) (body : α) :
    (s.announce command body).server = { s with announced := s.announced + 1 } :=
  sendAll_server { s with announced := s.announced + 1 } _ _ body

/-- What comes after an answer happens in the same state, or not at all. -/
theorem andThen_server (h : Handled) (next : Server → Handled) :
    (h.andThen next).server = h.server ∨ (h.andThen next).server = (next h.server).server := by
  rw [Handled.andThen]
  split
  · exact Or.inl rfl
  · exact Or.inr rfl

end Handled

theorem get_eq_ok_iff {r : Registry} {id : RoomId} {slot : Room.Slot} :
    r.get id = .ok slot ↔ r.rooms.get? id = some slot := by
  rw [Registry.get]
  cases r.rooms.get? id with
  | none => exact ⟨nofun, nofun⟩
  | some slot' => simp

theorem get_eq_error {r : Registry} {id : RoomId} {e : RoomError} (h : r.get id = .error e) :
    r.rooms.get? id = none := by
  rw [Registry.get] at h
  cases hget : r.rooms.get? id with
  | none => rfl
  | some slot =>
    rw [hget] at h
    cases h

theorem put_rooms (r : Registry) (id : RoomId) (slot : Room.Slot) :
    (r.put id slot).rooms = r.rooms.update id fun _ => slot := rfl

/-- A change of a room that is not tracked is none. -/
theorem update_of_error {r : Registry} {id : RoomId} {e : RoomError} (h : r.get id = .error e)
    (f : Room.Slot → Room.Slot) : r.rooms.update id f = r.rooms := by
  rw [Table.update, get_eq_error h]

/-- A change of a tracked room puts the changed slot in its place. -/
theorem update_of_ok {r : Registry} {id : RoomId} {slot : Room.Slot} (h : r.get id = .ok slot)
    (f : Room.Slot → Room.Slot) : r.rooms.update id f = (r.put id (f slot)).rooms := by
  rw [put_rooms, Table.update, Table.update, get_eq_ok_iff.mp h]

/-! ## The lobby -/

theorem login_change (s : Server) (conn : ConnId) (p : Packet) :
    Change s (.lobby conn p) (s.login conn p.payload).server.directory
      (s.login conn p.payload).server.registry.rooms := by
  rw [login]
  split
  · exact .idle _
  · rename_i request _
    split
    · rw [send_server]
      exact .idle _
    · simp only [send_server]
      exact .loggedIn conn p request.account

theorem createRoom_change (s : Server) (conn : ConnId) (p : Packet)
    (hcommand : LobbyCommand.ofByte p.command = .ok .createRoom) :
    Change s (.lobby conn p) (s.createRoom conn p.payload).server.directory
      (s.createRoom conn p.payload).server.registry.rooms := by
  rw [createRoom]
  split
  · exact .idle _
  · rename_i request hrequest
    split
    · rename_i hcontains
      simp only [announce_server]
      refine .created conn p request ?_ hcontains
      simp only [Event.create?, hcommand, hrequest]
    · rw [send_server]
      exact .idle _

section Join

variable {d d' : Directory} {r r' : Registry} {t t' : JoinTask} (player : PlayerId) (id : RoomId)

theorem steps_succ (n : Nat) (h : t.step d r = (t', d', r')) :
    JoinTask.steps (n + 1) t d r = JoinTask.steps n t' d' r' := by
  rw [JoinTask.steps, h]

/-- A join that is over stays as it is. -/
theorem steps_answered (n : Nat) (result : Except LobbyCode Room.Joined) :
    JoinTask.steps n ⟨player, id, .answered result⟩ d r =
      (⟨player, id, .answered result⟩, d, r) := by
  induction n with
  | zero => rfl
  | succ n ih => exact ih

/-- The room of a registered player can be recorded. -/
theorem exists_setRoom (hcontains : d.contains player = true) (room : Option RoomId) :
    ∃ d', d.setRoom player room = .ok d' := by
  obtain ⟨record, hrecord⟩ := Option.isSome_iff_exists.mp hcontains
  rw [Directory.setRoom]
  rw [hrecord]
  exact ⟨_, rfl⟩

/-- The parts of a join that change something: the player enters the room, and that is recorded. -/
theorem steps_allowed (hcontains : d.contains player = true) :
    (∃ code, JoinTask.steps 3 ⟨player, id, .allowed⟩ d r =
        (⟨player, id, .answered (.error code)⟩, d, r)) ∨
      ∃ slot room outcome d', r.rooms.get? id = some slot ∧
        slot.room.join player = .ok (outcome, room) ∧ d.setRoom player (some id) = .ok d' ∧
        JoinTask.steps 3 ⟨player, id, .allowed⟩ d r =
          (⟨player, id, .answered (.ok outcome)⟩, d', r.put id { slot with room }) := by
  cases hget : r.get id with
  | error e =>
    -- the room is not tracked
    have hrefused : (JoinTask.mk player id .allowed).step d r =
        (⟨player, id, .answered (.error e.lobbyCode)⟩, d, r) := by
      simp only [JoinTask.step, hget]
    exact Or.inl ⟨e.lobbyCode, (steps_succ 2 hrefused).trans (steps_answered player id 2 _)⟩
  | ok slot =>
    have hlocated : (JoinTask.mk player id .allowed).step d r = (⟨player, id, .located⟩, d, r) := by
      simp only [JoinTask.step, hget]
    cases hjoin : slot.room.join player with
    | error e =>
      -- the room takes no more members
      have hrefused : (JoinTask.mk player id .located).step d r =
          (⟨player, id, .answered (.error e.lobbyCode)⟩, d, r) := by
        simp only [JoinTask.step, hget, hjoin]
      exact Or.inl ⟨e.lobbyCode, (steps_succ 2 hlocated).trans
        ((steps_succ 1 hrefused).trans (steps_answered player id 1 _))⟩
    | ok entered =>
      obtain ⟨outcome, room⟩ := entered
      have hentered : (JoinTask.mk player id .located).step d r =
          (⟨player, id, .entered outcome⟩, d, r.put id { slot with room }) := by
        simp only [JoinTask.step, hget, hjoin]
      -- the player is still registered, for nobody is ever dropped from the directory
      obtain ⟨d', hset⟩ := exists_setRoom player hcontains (some id)
      have hrecorded : (JoinTask.mk player id (.entered outcome)).step d
          (r.put id { slot with room }) =
          (⟨player, id, .answered (.ok outcome)⟩, d', r.put id { slot with room }) := by
        simp only [JoinTask.step, hset]
      refine Or.inr ⟨slot, room, outcome, d', get_eq_ok_iff.mp hget, hjoin, hset, ?_⟩
      exact (steps_succ 2 hlocated).trans ((steps_succ 1 hentered).trans (steps_succ 0 hrecorded))

/-- The look at the player's current room: it ends the join, or that room does not stand in the
way. -/
theorem step_identified (d : Directory) (r : Registry) (current : Option RoomId) :
    (∃ code, (JoinTask.mk player id (.identified current)).step d r =
        (⟨player, id, .answered (.error code)⟩, d, r)) ∨
      ((JoinTask.mk player id (.identified current)).step d r = (⟨player, id, .allowed⟩, d, r) ∧
        ∀ other slot, current = some other → other ≠ id → r.rooms.get? other = some slot →
          slot.room.phase = .closed) := by
  cases current with
  | none =>
    refine Or.inr ⟨rfl, ?_⟩
    rintro other slot heq
    cases heq
  | some room =>
    by_cases hsame : room = id
    · refine Or.inr ⟨by simp only [JoinTask.step, if_pos hsame], ?_⟩
      rintro other slot heq hne
      exact absurd ((Option.some.inj heq).symm.trans hsame) hne
    · cases hget : r.get room with
      | error e =>
        -- it is tracked no more
        refine Or.inr ⟨by simp only [JoinTask.step, if_neg hsame, hget], ?_⟩
        rintro other slot heq - hother
        rw [← Option.some.inj heq, get_eq_error hget] at hother
        cases hother
      | ok slot =>
        by_cases hclosed : slot.room.phase = .closed
        · refine Or.inr ⟨by simp only [JoinTask.step, if_neg hsame, hget, if_pos hclosed], ?_⟩
          rintro other slot' heq - hother
          rw [← Option.some.inj heq, get_eq_ok_iff.mp hget] at hother
          rwa [← Option.some.inj hother]
        · exact Or.inl ⟨_, by simp only [JoinTask.step, if_neg hsame, hget, if_neg hclosed]; rfl⟩

/-- **A join** changes nothing, or it is of a registered player who is in no other open room, and
who enters the room and has it recorded. -/
theorem join_cases (d : Directory) (r : Registry) :
    (∃ code, join d r player id = (.error code, d, r)) ∨
      ∃ slot room outcome d', d.contains player = true ∧
        (∀ other slot', d.roomOf player = some other → other ≠ id →
          r.rooms.get? other = some slot' → slot'.room.phase = .closed) ∧
        r.rooms.get? id = some slot ∧ slot.room.join player = .ok (outcome, room) ∧
        d.setRoom player (some id) = .ok d' ∧
        join d r player id = (.ok outcome, d', r.put id { slot with room }) := by
  -- a join is its five parts, one after the other
  have hjoin : ∀ {t d' r'}, JoinTask.steps 5 ⟨player, id, .asked⟩ d r = (t, d', r') →
      join d r player id = (t.result?.getD (.error .roomNotFound), d', r') := by
    intro t d' r' hsteps
    rw [join, JoinTask.parts, JoinTask.new, hsteps]
  by_cases hcontains : d.contains player = true
  · have hasked : (JoinTask.mk player id .asked).step d r =
        (⟨player, id, .identified (d.roomOf player)⟩, d, r) := by
      simp only [JoinTask.step, if_pos hcontains]
    rcases step_identified player id d r (d.roomOf player) with ⟨code, hrefused⟩ |
      ⟨hallowed, hfree⟩
    · exact Or.inl ⟨code, hjoin ((steps_succ 4 hasked).trans
        ((steps_succ 3 hrefused).trans (steps_answered player id 3 _)))⟩
    · have hfirst := (steps_succ 4 hasked).trans (steps_succ 3 hallowed)
      rcases steps_allowed player id hcontains with ⟨code, hsteps⟩ |
        ⟨slot, room, outcome, d', hget, hentered, hset, hsteps⟩
      · exact Or.inl ⟨code, hjoin (hfirst.trans hsteps)⟩
      · exact Or.inr ⟨slot, room, outcome, d', hcontains, hfree, hget, hentered, hset,
          hjoin (hfirst.trans hsteps)⟩
  · have hrefused : (JoinTask.mk player id .asked).step d r =
        (⟨player, id, .answered (.error .playerNotFound)⟩, d, r) := by
      simp only [JoinTask.step, if_neg hcontains]
    exact Or.inl ⟨_, hjoin ((steps_succ 4 hrefused).trans (steps_answered player id 4 _))⟩

end Join

section Handlers

variable (s : Server) (conn : ConnId) (p : Packet)

/-- **The stores after a join** are as the join leaves them: what follows the answer concerns the
battle listener only. -/
theorem joinRoom_stores {payload : Bytes} {request : JoinRoomRequest}
    {result : Except LobbyCode Room.Joined} {d : Directory} {r : Registry}
    (hrequest : readBody JoinRoomRequest payload = .ok request)
    (hjoin : join s.directory s.registry request.player request.room = (result, d, r)) :
    (s.joinRoom conn payload).server.directory = d ∧
      (s.joinRoom conn payload).server.registry = r := by
  rw [joinRoom]
  simp only [hrequest, hjoin]
  cases result with
  | error code =>
    simp only [send_server]
    exact ⟨trivial, trivial⟩
  | ok outcome =>
    rcases andThen_server _ _ with h | h
    · rw [h, announce_server]
      exact ⟨rfl, rfl⟩
    · rw [h, announce_server]
      split <;> exact ⟨rfl, rfl⟩

theorem joinRoom_change : Change s (.lobby conn p) (s.joinRoom conn p.payload).server.directory
    (s.joinRoom conn p.payload).server.registry.rooms := by
  cases hrequest : readBody JoinRoomRequest p.payload with
  | error e =>
    simp only [joinRoom, hrequest]
    exact .idle _
  | ok request =>
    rcases join_cases request.player request.room s.directory s.registry with ⟨code, hjoin⟩ |
      ⟨slot, room, outcome, d', hcontains, hfree, hget, hentered, hset, hjoin⟩
    · obtain ⟨hdirectory, hregistry⟩ := joinRoom_stores s conn hrequest hjoin
      rw [hdirectory, hregistry]
      exact .idle _
    · obtain ⟨hdirectory, hregistry⟩ := joinRoom_stores s conn hrequest hjoin
      rw [hdirectory, hregistry]
      exact .joined conn p request.player request.room slot room outcome d' hcontains hfree hget
        hentered hset

theorem onLobby_change : Change s (.lobby conn p) (s.onLobby conn p).server.directory
    (s.onLobby conn p).server.registry.rooms := by
  rw [onLobby]
  split
  · exact .idle _
  · exact login_change s conn p
  · rename_i hcommand
    exact createRoom_change s conn p hcommand
  · exact joinRoom_change s conn p

/-! ## The battle channel -/

/-- **A binding that succeeds** puts the directory in order, and moves the player's entry in the
room it has joined. -/
theorem step_connect {e : Event} {request : ConnectRequest} {replaced : Option ConnId}
    {d : Directory} (hconnect : e.connect? = some (conn, request))
    (hbind : s.directory.bindBattle request.player conn = .ok (replaced, d)) :
    (s.step e).2.directory = d ∧ (s.step e).2.registry.rooms =
      onRoomOf d request.player (fun slot => (slot.rebind request.player conn).2)
        s.registry.rooms := by
  unfold Event.connect? at hconnect
  split at hconnect
  · rename_i conn' p
    split at hconnect
    · rename_i request' hcommand hrequest
      cases hconnect
      simp only [step, onBattle, hcommand, connect, hrequest, hbind, send_server]
      refine ⟨trivial, ?_⟩
      cases hroom : d.roomOf request.player with
      | none => simp only [onRoomOf, hroom]
      | some id =>
        simp only [onRoomOf, hroom]
        cases hget : s.registry.get id with
        | error e => rw [update_of_error hget]
        | ok slot => rw [update_of_ok hget]
    · cases hconnect
  · cases hconnect

theorem connect_change (hcommand : BattleCommand.ofByte p.command = .ok .connect) :
    Change s (.battle conn p) (s.connect conn p.payload).server.directory
      (s.connect conn p.payload).server.registry.rooms := by
  have hstep : (s.step (.battle conn p)).2 = (s.connect conn p.payload).server := by
    simp only [step, onBattle, hcommand]
  rw [← hstep]
  cases hrequest : readBody ConnectRequest p.payload with
  | error e =>
    simp only [step, onBattle, hcommand, connect, hrequest]
    exact .idle _
  | ok request =>
    cases hbind : s.directory.bindBattle request.player conn with
    | error e =>
      simp only [step, onBattle, hcommand, connect, hrequest, hbind, send_server]
      exact .idle _
    | ok bound =>
      have hconnect : (Event.battle conn p).connect? = some (conn, request) := by
        simp only [Event.connect?, hcommand, hrequest]
      obtain ⟨hdirectory, hrooms⟩ := step_connect s conn hconnect hbind
      rw [hdirectory, hrooms]
      exact .bound conn p request bound.1 bound.2 hconnect hbind

theorem spawnTicker_directory (id : RoomId) : (s.spawnTicker id).directory = s.directory := by
  rw [spawnTicker]
  split <;> rfl

/-- Starting the ticker of a room that is tracked changes its slot, but not the room. -/
theorem spawnTicker_rooms {id : RoomId} {slot : Room.Slot}
    (hget : s.registry.rooms.get? id = some slot) :
    (s.spawnTicker id).registry.rooms =
      s.registry.rooms.update id fun _ => (slot.spawnTicker s.now (s.chance.draw id)).2 := by
  rw [spawnTicker]
  rw [get_eq_ok_iff.mpr hget]
  rfl

theorem slot_spawnTicker_room (slot : Room.Slot) (now draw : Nat) :
    (slot.spawnTicker now draw).2.room = slot.room := by
  rw [Room.Slot.spawnTicker]
  split <;> rfl

/-- A ticker that has not been started starts now, unless the slot is stopped. -/
theorem slot_spawnTicker_eq {slot : Room.Slot} (hfirst : slot.tickerStarted = false)
    (now draw : Nat) :
    (slot.spawnTicker now draw).2 = { slot with
      tickerStarted := true
      ticker :=
        if slot.stopped then none
        else some (Tick.Schedule.start slot.room.config.tick now draw) } := by
  simp only [Room.Slot.spawnTicker, hfirst, Bool.false_eq_true, if_false]

/-- A slot becomes ready as its room does, and the ticker is left alone. -/
theorem slot_ready_eq_ok {slot slot' : Room.Slot} {player : PlayerId} {now : Nat}
    {outcome : Room.Readied} (h : slot.ready player conn now = .ok (outcome, slot')) :
    slot.room.becomeReady player conn now = .ok (outcome, slot'.room) ∧
      slot' = { slot with room := slot'.room } := by
  rw [Room.Slot.ready] at h
  split at h
  · cases h
  · rename_i hready
    cases h
    exact ⟨hready, rfl⟩

theorem ready_change (hcommand : BattleCommand.ofByte p.command = .ok .ready) :
    Change s (.battle conn p) (s.ready conn p.payload).server.directory
      (s.ready conn p.payload).server.registry.rooms := by
  unfold ready refuseReady
  split
  · exact .idle _
  · rename_i request hrequest
    have hasks : (Event.battle conn p).ready? = some (conn, request) := by
      simp only [Event.ready?, hcommand, hrequest]
    by_cases hbound : s.directory.playerByBattle conn = some request.player
    · rw [if_neg (Classical.not_not.mpr hbound)]
      cases hget : s.registry.get request.room with
      | error e =>
        simp only [send_server]
        exact .idle _
      | ok slot =>
        have hslot := get_eq_ok_iff.mp hget
        simp only
        cases hready : slot.ready request.player conn s.now with
        | error e =>
          simp only [send_server]
          exact .idle _
        | ok readied =>
          obtain ⟨outcome, slot'⟩ := readied
          have hroom := (slot_ready_eq_ok conn hready).1
          have hreadied : ∀ slot'' : Room.Slot, slot''.room = slot'.room →
              Change s (.battle conn p) s.directory
                (s.registry.rooms.update request.room fun _ => slot'') := by
            intro slot'' hsame
            exact .readied conn p request.player request.room slot slot'' outcome hasks hbound
              hslot (hsame ▸ hroom)
          have hput : (s.registry.put request.room slot').rooms.get? request.room = some slot' := by
            rw [put_rooms, Table.get?_update, if_pos rfl, hslot]
            rfl
          -- The answers may fail to be written; the ticker is started if none does.
          simp only
          rcases andThen_server _ _ with h | h
          · rw [h, sendAll_server]
            exact hreadied slot' rfl
          · rw [h, sendAll_server]
            split
            · exact hreadied slot' rfl
            · rcases andThen_server _ _ with h | h
              · rw [h, sendAll_server]
                exact hreadied slot' rfl
              · rw [h, sendAll_server, silent_server, spawnTicker_directory,
                  spawnTicker_rooms _ hput, put_rooms, Table.update_update]
                exact hreadied _ (slot_spawnTicker_room slot' s.now _)
    · rw [if_pos hbound]
      rw [send_server]
      exact .idle _

theorem resolve_eq_some {player : PlayerId} {id : RoomId} {slot : Room.Slot}
    (h : s.resolve conn = some (player, id, slot)) :
    s.directory.playerByBattle conn = some player ∧ s.directory.roomOf player = some id ∧
      s.registry.rooms.get? id = some slot := by
  rw [resolve] at h
  split at h
  · cases h
  · rename_i player' hplayer
    split at h
    · cases h
    · rename_i id' hroom
      split at h
      · cases h
      · rename_i slot' hget
        cases h
        exact ⟨hplayer, hroom, get_eq_ok_iff.mp hget⟩

theorem frame_change : Change s (.battle conn p) (s.frame conn p.payload).server.directory
    (s.frame conn p.payload).server.registry.rooms := by
  rw [frame]
  split
  · exact .idle _
  · rename_i input _
    cases hresolve : s.resolve conn with
    | none => exact .idle _
    | some resolved =>
      obtain ⟨player, id, slot⟩ := resolved
      obtain ⟨hplayer, hroom, hget⟩ := resolve_eq_some s conn hresolve
      have hplayed := Change.played conn p player id slot (.input player input) hplayer hroom hget
        (Or.inl ⟨input, rfl⟩)
      simp only [Room.apply] at hplayed ⊢
      cases hrecord : slot.room.recordInput player input with
      | error e => exact .idle _
      | ok room =>
        rw [hrecord] at hplayed
        exact hplayed

theorem check_change : Change s (.battle conn p) (s.check conn p.payload).server.directory
    (s.check conn p.payload).server.registry.rooms := by
  rw [check]
  split
  · exact .idle _
  · rename_i request _
    cases hresolve : s.resolve conn with
    | none =>
      simp only [send_server]
      exact .idle _
    | some resolved =>
      obtain ⟨player, id, slot⟩ := resolved
      obtain ⟨hplayer, hroom, hget⟩ := resolve_eq_some s conn hresolve
      have hplayed := Change.played conn p player id slot (.check player request) hplayer hroom hget
        (Or.inr ⟨request, rfl⟩)
      simp only [Room.apply] at hplayed ⊢
      cases hsubmit : slot.room.submitCheck player request with
      | error e =>
        simp only [send_server]
        exact .idle _
      | ok submitted =>
        obtain ⟨verdict, room⟩ := submitted
        rw [hsubmit] at hplayed
        cases verdict with
        | none => exact hplayed
        | some verdict =>
          simp only [sendAll_server]
          exact hplayed

theorem onBattle_change : Change s (.battle conn p) (s.onBattle conn p).server.directory
    (s.onBattle conn p).server.registry.rooms := by
  rw [onBattle]
  split
  · exact .idle _
  · rename_i hcommand
    exact connect_change s conn p hcommand
  · rename_i hcommand
    exact ready_change s conn p hcommand
  · rw [heartbeat]
    split
    · exact .idle _
    · rw [send_server]
      exact .idle _
  · exact frame_change s conn p
  · exact .idle _
  · exact check_change s conn p

/-- **A battle connection that is gone** is taken out of the directory, and its player out of the
ready members of the room it has joined. -/
theorem battleDisconnected_eq {player : PlayerId}
    (hplayer : s.directory.playerByBattle conn = some player) :
    (s.battleDisconnected conn).directory = (s.directory.unbindBattle conn).2 ∧
      (s.battleDisconnected conn).registry.rooms =
        onRoomOf (s.directory.unbindBattle conn).2 player (fun slot => (slot.disconnect player).2)
          s.registry.rooms := by
  obtain ⟨d, hunbind⟩ : ∃ d, s.directory.unbindBattle conn = (some player, d) :=
    ⟨_, Directory.unbindBattle_of_some hplayer⟩
  rw [battleDisconnected, hunbind]
  cases hroom : d.roomOf player with
  | none => simp only [onRoomOf, hroom, and_self]
  | some id =>
    simp only [onRoomOf, hroom]
    cases hget : s.registry.get id with
    | error e =>
      rw [update_of_error hget]
      exact ⟨rfl, rfl⟩
    | ok slot =>
      rw [update_of_ok hget]
      exact ⟨rfl, rfl⟩

theorem battleDisconnected_of_none (hplayer : s.directory.playerByBattle conn = none) :
    s.battleDisconnected conn = s := by
  rw [battleDisconnected]
  rw [Directory.unbindBattle_of_none hplayer]

theorem battleDisconnected_change : Change s (.battleDisconnected conn)
    (s.battleDisconnected conn).directory (s.battleDisconnected conn).registry.rooms := by
  cases hplayer : s.directory.playerByBattle conn with
  | none =>
    rw [battleDisconnected_of_none s conn hplayer]
    exact .idle _
  | some player =>
    obtain ⟨hdirectory, hrooms⟩ := battleDisconnected_eq s conn hplayer
    rw [hdirectory, hrooms]
    exact .battleLeft conn player hplayer

end Handlers

/-- **Every event is one of the changes.** -/
theorem change_step (s : Server) (e : Event) :
    Change s e (s.step e).2.directory (s.step e).2.registry.rooms := by
  cases e with
  | lobby conn p => exact onLobby_change s conn p
  | battle conn p => exact onBattle_change s conn p
  | notice => exact .idle _
  | lobbyDisconnected conn => exact .lobbyLeft conn
  | battleDisconnected conn => exact battleDisconnected_change s conn
  | cut conn => exact .idle _
  | closeRoom id =>
    have hclosed := Change.closed (s := s) id
    simp only [step, Registry.close]
    cases hget : s.registry.get id with
    | error e => exact .idle _
    | ok slot =>
      rw [update_of_ok hget] at hclosed
      exact hclosed
  | reclaim => exact .reclaimed
  | shutdownRooms => exact .shut
  | sleep ms => exact .passed _ _ _ (Or.inl ⟨ms, rfl⟩)
  | jump ms => exact .passed _ _ _ (Or.inr ⟨ms, rfl⟩)

/-! ## What no event changes -/

/-- The settings of a server stay as they are: who may log in, how bodies are written, what has been
left open, and how and for how long rooms are made. -/
structure SameSettings (s s' : Server) : Prop where
  admission : s'.admission = s.admission
  encoder : s'.encoder = s.encoder
  chance : s'.chance = s.chance
  config : s'.registry.config = s.registry.config
  stopped : s'.registry.stopped = s.registry.stopped

theorem SameSettings.refl (s : Server) : SameSettings s s := ⟨rfl, rfl, rfl, rfl, rfl⟩

theorem SameSettings.trans {s s' s'' : Server} (h : SameSettings s s')
    (h' : SameSettings s' s'') : SameSettings s s'' :=
  ⟨h'.admission.trans h.admission, h'.encoder.trans h.encoder, h'.chance.trans h.chance,
    h'.config.trans h.config, h'.stopped.trans h.stopped⟩

theorem SameSettings.andThen {s : Server} {h : Handled} {next : Server → Handled}
    (hfirst : SameSettings s h.server) (hnext : SameSettings h.server (next h.server).server) :
    SameSettings s (h.andThen next).server := by
  rcases andThen_server h next with heq | heq
  · rw [heq]
    exact hfirst
  · rw [heq]
    exact hfirst.trans hnext

theorem SameSettings.put (s : Server) (id : RoomId) (slot : Room.Slot) :
    SameSettings s { s with registry := s.registry.put id slot } := ⟨rfl, rfl, rfl, rfl, rfl⟩

section Settings

variable (s : Server) (conn : ConnId) (p : Packet)

theorem sameSettings_onLobby : SameSettings s (s.onLobby conn p).server := by
  rw [onLobby]
  split
  · exact .refl s
  · rw [login]
    split
    · exact .refl s
    · split
      · rw [send_server]
        exact .refl s
      · simp only [send_server]
        exact ⟨rfl, rfl, rfl, rfl, rfl⟩
  · rw [createRoom]
    split
    · exact .refl s
    · split
      · simp only [announce_server]
        exact ⟨rfl, rfl, rfl, rfl, rfl⟩
      · rw [send_server]
        exact .refl s
  · rw [joinRoom]
    split
    · exact .refl s
    · rename_i request _
      rcases join_cases request.player request.room s.directory s.registry with ⟨code, hjoin⟩ |
        ⟨slot, room, outcome, d', -, -, -, -, -, hjoin⟩
      · rw [hjoin]
        simp only [send_server]
        exact .refl s
      · rw [hjoin]
        refine SameSettings.andThen ?_ ?_
        · rw [announce_server]
          exact ⟨rfl, rfl, rfl, rfl, rfl⟩
        · rw [announce_server]
          split <;> exact ⟨rfl, rfl, rfl, rfl, rfl⟩

theorem sameSettings_ready : SameSettings s (s.ready conn p.payload).server := by
  unfold ready refuseReady
  split
  · exact .refl s
  · rename_i request _
    split
    · rw [send_server]
      exact .refl s
    · split
      · rw [send_server]
        exact .refl s
      · split
        · rw [send_server]
          exact .refl s
        · refine SameSettings.andThen ?_ ?_
          · rw [sendAll_server]
            exact .put s _ _
          · split
            · exact .refl _
            · refine SameSettings.andThen ?_ ?_
              · rw [sendAll_server, sendAll_server]
                exact .refl _
              · rw [sendAll_server, sendAll_server, silent_server, spawnTicker]
                split
                · exact .refl _
                · exact .put _ _ _

theorem sameSettings_onBattle : SameSettings s (s.onBattle conn p).server := by
  rw [onBattle]
  split
  · exact .refl s
  · rw [connect]
    split
    · exact .refl s
    · split
      · rw [send_server]
        exact .refl s
      · rw [send_server]
        split
        · exact ⟨rfl, rfl, rfl, rfl, rfl⟩
        · split <;> exact ⟨rfl, rfl, rfl, rfl, rfl⟩
  · exact sameSettings_ready s conn p
  · rw [heartbeat]
    split
    · exact .refl s
    · rw [send_server]
      exact .refl s
  · rw [frame]
    split
    · exact .refl s
    · split
      · exact .refl s
      · split
        · exact .refl s
        · exact .put s _ _
  · exact .refl s
  · rw [check]
    split
    · exact .refl s
    · split
      · rw [send_server]
        exact .refl s
      · split
        · rw [send_server]
          exact .refl s
        · simp only
          split
          · exact .put s _ _
          · rw [sendAll_server]
            exact .put s _ _

end Settings

/-- **Every event leaves the settings as they are**, unless it shuts the rooms down. -/
theorem sameSettings_step (s : Server) {e : Event} (he : e ≠ .shutdownRooms) :
    SameSettings s (s.step e).2 := by
  cases e with
  | shutdownRooms => exact absurd rfl he
  | lobby conn p => exact sameSettings_onLobby s conn p
  | battle conn p => exact sameSettings_onBattle s conn p
  | battleDisconnected conn =>
    show SameSettings s (s.battleDisconnected conn)
    rw [battleDisconnected]
    split
    · exact .refl s
    · simp only
      split
      · exact ⟨rfl, rfl, rfl, rfl, rfl⟩
      · split <;> exact ⟨rfl, rfl, rfl, rfl, rfl⟩
  | closeRoom id =>
    simp only [step, Registry.close]
    cases s.registry.get id with
    | error e => exact .refl s
    | ok slot => exact .put s _ _
  | _ => exact ⟨rfl, rfl, rfl, rfl, rfl⟩

/-- What bodies are written with and how rooms are made is never changed. -/
theorem settings_step (s : Server) (e : Event) :
    (s.step e).2.encoder = s.encoder ∧ (s.step e).2.registry.config = s.registry.config := by
  by_cases he : e = .shutdownRooms
  · subst he
    exact ⟨rfl, rfl⟩
  · exact ⟨(sameSettings_step s he).encoder, (sameSettings_step s he).config⟩

/-- Neither is who may log in. -/
theorem admission_step (s : Server) (e : Event) : (s.step e).2.admission = s.admission := by
  by_cases he : e = .shutdownRooms
  · subst he
    rfl
  · exact (sameSettings_step s he).admission

/-- A request of a registered player for a new room is granted. -/
theorem registry_of_create {s : Server} {e : Event} {request : CreateRoomRequest}
    (hcreate : e.create? = some request) (hcontains : s.directory.contains request.player = true) :
    (s.step e).2.registry = s.registry.reclaim.2.create.2 := by
  unfold Event.create? at hcreate
  split at hcreate
  · split at hcreate
    · rename_i hcommand hrequest
      cases hcreate
      simp only [step, onLobby, hcommand, createRoom, hrequest, if_pos hcontains, announce_server]
    · cases hcreate
  · cases hcreate

/-! ## Runs -/

theorem run_append (s : Server) (before after : List Event) :
    (run s (before ++ after)).2 = (run (run s before).2 after).2 := by
  induction before generalizing s with
  | nil => rfl
  | cons e rest ih => exact ih (s.step e).2

/-- The state of a server after some events. -/
def stateAfter (setup : Setup) (es : List Event) : Server := (run (new setup) es).2

theorem stateAfter_snoc (setup : Setup) (es : List Event) (e : Event) :
    stateAfter setup (es ++ [e]) = ((stateAfter setup es).step e).2 :=
  run_append (new setup) es [e]

/-- Who may log in, and what bodies are written with, is as it was set up. -/
theorem settings_after (setup : Setup) (es : List Event) :
    (stateAfter setup es).admission = setup.admission ∧
      (stateAfter setup es).encoder = setup.encoder := by
  induction es using List.reverseRecOn with
  | nil => exact ⟨rfl, rfl⟩
  | append_singleton es e ih =>
    rw [stateAfter_snoc]
    exact ⟨(admission_step _ e).trans ih.1, (settings_step _ e).1.trans ih.2⟩

/-- A state can be reached if and only if some events lead to it. -/
theorem reachable_iff {setup : Setup} {s : Server} :
    Reachable setup s ↔ ∃ es, s = stateAfter setup es := by
  constructor
  · intro h
    induction h with
    | new => exact ⟨[], rfl⟩
    | step e _ ih =>
      obtain ⟨es, rfl⟩ := ih
      exact ⟨es ++ [e], (stateAfter_snoc setup es e).symm⟩
  · rintro ⟨es, rfl⟩
    induction es using List.reverseRecOn with
    | nil => exact .new
    | append_singleton es e ih =>
      rw [stateAfter_snoc]
      exact .step e ih

/-- Accounts are never forgotten. -/
theorem Change.accounts_le {s : Server} {e : Event} {d : Directory} {rooms : Table RoomId Room.Slot}
    (h : Change s e d rooms) : s.directory.accounts.length ≤ d.accounts.length := by
  cases h with
  | loggedIn conn p account => exact Directory.accounts_login_le s.directory account conn
  | joined conn p player id slot room outcome d hcontains hfree hget hjoin hset =>
    rw [Directory.setRoom] at hset
    split at hset
    · cases hset
    · cases hset
      exact Nat.le_refl _
  | lobbyLeft conn =>
    rw [Directory.unbindLobby]
    split <;> exact Nat.le_refl _
  | bound conn p request replaced d hconnect hbind =>
    obtain ⟨record, -, rfl⟩ := Directory.bindBattle_eq_ok hbind
    exact Nat.le_refl _
  | battleLeft conn player hplayer =>
    rw [Directory.unbindBattle]
    split <;> exact Nat.le_refl _
  | _ => exact Nat.le_refl _

theorem accounts_le_run (s : Server) (es : List Event) :
    s.directory.accounts.length ≤ (run s es).2.directory.accounts.length := by
  induction es generalizing s with
  | nil => exact Nat.le_refl _
  | cons e rest ih => exact Nat.le_trans (change_step s e).accounts_le (ih (s.step e).2)

theorem accounts_mono (setup : Setup) {before es : List Event} (h : before <+: es) :
    (stateAfter setup before).directory.accounts.length ≤
      (stateAfter setup es).directory.accounts.length := by
  obtain ⟨after, rfl⟩ := h
  unfold stateAfter
  rw [run_append]
  exact accounts_le_run _ after

end Server

end FrameSync
