import FrameSync.Proofs.Room.LowBits
import FrameSync.Proofs.Server.Agreement

/-!
# Positions that clients claim

A client claims a position twice: in the low bit of an input byte, and in the position that comes
with an integrity value. The server goes by the seat of the player that the connection speaks for.
So nothing that it sends depends on these claims, and of what it keeps only the low bits of the
stored inputs do (`claims_have_no_effect`).

The proof is not about two runs but about one and its cleared image: an event without its claims
(`Event.cleared`), handled by a server without the low bits it keeps (`Server.cleared`), is reported
in the same way and leaves the cleared state (`step_cleared`). Two runs that differ in claims alone
have the same image.

What the program leaves open is the same for both runs and may be anything: what tickers draw, in
which order connections are listed, and how the tickers of different rooms take turns. Nothing of
this can depend on a claim, since no claim is to be seen in what it is asked about.
-/

set_option autoImplicit false

namespace FrameSync

open Wire Tick

/-! ## Packets -/

namespace Wire

theorem u32_decode_cons (a b c d : UInt8) (rest : Bytes) :
    Layout.u32.decode (a :: b :: c :: d :: rest) =
      .ok (UInt32.ofNat (Bytes.ofLittleEndian [a, b, c, d]), rest) := rfl

theorem u8_decode_cons (b : UInt8) (rest : Bytes) :
    Layout.u8.decode (b :: rest) = .ok (b, rest) := by
  show Except.ok (UInt8.ofNat (Bytes.ofLittleEndian [b]), rest) = _
  simp [Bytes.ofLittleEndian]

/-- The byte behind the number of the frame is the input, -/
theorem readBody_frame_cons (a b c d input : UInt8) (rest : Bytes) :
    readBody FrameInput (a :: b :: c :: d :: input :: rest) =
      .ok ⟨UInt32.ofNat (Bytes.ofLittleEndian [a, b, c, d]), input⟩ := by
  simp only [readBody, decodeBody, Body.layout, Layout.convert, Layout.pair, u32_decode_cons,
    u8_decode_cons]

/-- or the position that is claimed. -/
theorem readBody_check_cons (a b c d position : UInt8) (rest : Bytes) :
    readBody CheckRequest (a :: b :: c :: d :: position :: rest) =
      match Layout.i64.decode rest with
      | .error e => .error (.decode e)
      | .ok (value, _) =>
        .ok ⟨UInt32.ofNat (Bytes.ofLittleEndian [a, b, c, d]), position, value⟩ := by
  simp only [readBody, decodeBody, Body.layout, Layout.convert, Layout.pair, u32_decode_cons,
    u8_decode_cons]
  cases Layout.i64.decode rest <;> rfl

/-- **Clearing the byte clears the input**, and nothing else, -/
theorem readBody_frame_cleared (payload : Bytes) :
    readBody FrameInput (payload.modify 4 clearLow) =
      (readBody FrameInput payload).map FrameInput.cleared := by
  rcases payload with _ | ⟨a, _ | ⟨b, _ | ⟨c, _ | ⟨d, _ | ⟨input, rest⟩⟩⟩⟩⟩
  -- the body ends before the input
  · rfl
  · rfl
  · rfl
  · rfl
  · rfl
  · show readBody FrameInput (a :: b :: c :: d :: clearLow input :: rest) = _
    rw [readBody_frame_cons, readBody_frame_cons]
    rfl

/-- or the position. -/
theorem readBody_check_cleared (payload : Bytes) :
    readBody CheckRequest (payload.modify 4 fun _ => 0) =
      (readBody CheckRequest payload).map CheckRequest.cleared := by
  rcases payload with _ | ⟨a, _ | ⟨b, _ | ⟨c, _ | ⟨d, _ | ⟨position, rest⟩⟩⟩⟩⟩
  · rfl
  · rfl
  · rfl
  · rfl
  · rfl
  · show readBody CheckRequest (a :: b :: c :: d :: 0 :: rest) = _
    rw [readBody_check_cons, readBody_check_cons]
    cases Layout.i64.decode rest <;> rfl

/-- A battle packet without the position it claims: bit 0 of the input byte of a `frame`, and the
position of a `check`. -/
def Packet.cleared (p : Packet) : Packet :=
  match BattleCommand.ofByte p.command with
  | .ok .frame => { p with payload := p.payload.modify 4 clearLow }
  | .ok .check => { p with payload := p.payload.modify 4 fun _ => 0 }
  | _ => p

end Wire

/-! ## The registry -/

namespace Registry

/-- The registry with the low bits of all stored inputs cleared. -/
def cleared (r : Registry) : Registry := { r with rooms := r.rooms.mapValues Room.Slot.cleared }

section Registry

variable (r : Registry) (id : RoomId)

theorem cleared_get : r.cleared.get id = (r.get id).map Room.Slot.cleared := by
  unfold get
  rw [cleared, Table.get?_mapValues]
  cases r.rooms.get? id <;> rfl

theorem cleared_put (slot : Room.Slot) :
    r.cleared.put id slot.cleared = (r.put id slot).cleared := by
  have hrooms := Table.mapValues_update r.rooms id Room.Slot.cleared (fun _ => slot)
    (fun _ => slot.cleared) fun _ => rfl
  rw [put, put, cleared, cleared, hrooms]
  rfl

/-- Put back what an operation leaves of a cleared slot. -/
theorem cleared_put_snd {α : Type} {x x' : α × Room.Slot} (h : x' = Room.Slot.withCleared x) :
    r.cleared.put id x'.2 = (r.put id x.2).cleared := by
  rw [h]
  exact r.cleared_put id x.2

theorem cleared_create : r.cleared.create = (r.create.1, r.create.2.cleared) := by
  have hrooms := Table.mapValues_insert r.rooms (r.roomId (r.created + 1))
    (Room.Slot.ofRoom (Room.new (r.roomId (r.created + 1)) r.config) r.stopped) Room.Slot.cleared
  rw [create, create]
  unfold cleared
  simp only [hrooms]
  rfl

theorem cleared_close : r.cleared.close id = (r.close id).map cleared := by
  unfold close
  rw [cleared_get]
  cases r.get id with
  | error e => rfl
  | ok slot =>
    show Except.ok (r.cleared.put id slot.cleared.close) = _
    rw [Room.Slot.cleared_close, cleared_put]
    rfl

theorem cleared_reclaim :
    r.cleared.reclaim = (r.reclaim.1.mapValues Room.Slot.cleared, r.reclaim.2.cleared) := by
  have hdropped := Table.mapValues_filter r.rooms Room.Slot.cleared (fun _ s => s.stopped)
    (fun _ s => s.stopped) fun _ _ => rfl
  have hkept := Table.mapValues_filter r.rooms Room.Slot.cleared (fun _ s => !s.stopped)
    (fun _ s => !s.stopped) fun _ _ => rfl
  rw [reclaim, reclaim]
  unfold cleared
  simp only [hdropped, hkept]

theorem cleared_shutdown : r.cleared.shutdown = r.shutdown.cleared := by
  rw [shutdown, shutdown]
  unfold cleared
  simp only [Table.mapValues_mapValues, Room.Slot.cleared_close]

/-- A ticker waits in the same way for its cleared room. -/
theorem cleared_ofSlot? (encoder : Encoder) (now target : Nat) (slot : Room.Slot) :
    Room.Waiter.ofSlot? encoder now target id slot.cleared =
      Room.Waiter.ofSlot? encoder now target id slot := by
  unfold Room.Waiter.ofSlot?
  simp only [Room.Slot.cleared_runSchedule]
  rfl

theorem cleared_waiters (encoder : Encoder) (now target : Nat) :
    r.cleared.waiters encoder now target = r.waiters encoder now target := by
  unfold waiters
  have hentries : r.cleared.rooms.entries =
      r.rooms.entries.map fun e => (e.1, e.2.cleared) := rfl
  rw [hentries, List.filterMap_map]
  simp only [Function.comp_def, cleared_ofSlot?]
  rfl

theorem cleared_firings (encoder : Encoder) (now target : Nat) :
    r.cleared.firings encoder now target = r.firings encoder now target := by
  unfold firings
  have hentries : r.cleared.rooms.entries =
      r.rooms.entries.map fun e => (e.1, e.2.cleared) := rfl
  rw [hentries, List.flatMap_map]
  simp only [Room.Slot.cleared_runTicker]
  rfl

/-- **Tickers send the same** from the cleared rooms, in the same turns. -/
theorem cleared_advance (encoder : Encoder) (now target : Nat) :
    r.cleared.advance encoder now target =
      ((r.advance encoder now target).1, (r.advance encoder now target).2.cleared) := by
  have hrooms : r.cleared.rooms.mapValues (fun s => (s.runTicker encoder now target).2) =
      (r.rooms.mapValues fun s => (s.runTicker encoder now target).2).mapValues
        Room.Slot.cleared := by
    rw [cleared, Table.mapValues_mapValues, Table.mapValues_mapValues]
    simp only [Room.Slot.cleared_runTicker]
    rfl
  rw [advance, advance, cleared_waiters, cleared_firings, hrooms]
  rfl

end Registry

end Registry

namespace Server

/-! ## Joins -/

/-- A part of a join goes the same way with the cleared rooms. -/
theorem cleared_joinStep (t : JoinTask) (d : Directory) (r : Registry) :
    t.step d r.cleared = ((t.step d r).1, (t.step d r).2.1, (t.step d r).2.2.cleared) := by
  obtain ⟨player, id, stage⟩ := t
  cases stage with
  | asked =>
    simp only [JoinTask.step]
    split <;> rfl
  | identified current =>
    cases current with
    | none => rfl
    | some room =>
      simp only [JoinTask.step, Registry.cleared_get]
      split
      · rfl
      · cases r.get room with
        | error e => rfl
        | ok slot =>
          show (if slot.room.phase = .closed then _ else _) = _
          simp only
          split <;> rfl
  | allowed =>
    simp only [JoinTask.step, Registry.cleared_get]
    cases r.get id <;> rfl
  | located =>
    simp only [JoinTask.step, Registry.cleared_get]
    cases r.get id with
    | error e => rfl
    | ok slot =>
      simp only [Except.map, Room.Slot.cleared_room, Room.cleared_join]
      cases slot.room.join player with
      | error e => rfl
      | ok entered =>
        obtain ⟨outcome, room⟩ := entered
        exact congrArg (fun r' : Registry => ((⟨player, id, .entered outcome⟩ : JoinTask), d, r'))
          (r.cleared_put id { slot with room })
  | entered outcome =>
    simp only [JoinTask.step]
    cases d.setRoom player (some id) <;> rfl
  | answered result => rfl

theorem cleared_joinSteps (n : Nat) (t : JoinTask) (d : Directory) (r : Registry) :
    t.steps n d r.cleared =
      ((t.steps n d r).1, (t.steps n d r).2.1, (t.steps n d r).2.2.cleared) := by
  induction n generalizing t d r with
  | zero => rfl
  | succ n ih =>
    rw [JoinTask.steps, cleared_joinStep]
    exact ih _ _ _

theorem cleared_join (d : Directory) (r : Registry) (player : PlayerId) (id : RoomId) :
    join d r.cleared player id =
      ((join d r player id).1, (join d r player id).2.1, (join d r player id).2.2.cleared) := by
  rw [join, cleared_joinSteps]
  rfl

/-! ## The server -/

/-- The server with the low bits of all stored inputs cleared. -/
def cleared (s : Server) : Server := { s with registry := s.registry.cleared }

theorem cleared_registry (s : Server) : s.cleared.registry = s.registry.cleared := rfl

theorem cleared_directory (s : Server) : s.cleared.directory = s.directory := rfl

theorem cleared_admission (s : Server) : s.cleared.admission = s.admission := rfl

theorem cleared_encoder (s : Server) : s.cleared.encoder = s.encoder := rfl

/-- What handling a packet comes to, with the low bits cleared. -/
def Handled.cleared (h : Handled) : Handled := { h with server := h.server.cleared }

theorem Handled.cleared_error (h : Handled) : h.cleared.error = h.error := rfl

section Answers

variable {α : Type} [Body α] (s : Server)

theorem cleared_sendAll (conns : List ConnId) (command : UInt8) (body : α) :
    s.cleared.sendAll conns command body = (s.sendAll conns command body).cleared := by
  unfold sendAll
  rw [cleared_encoder]
  cases s.encoder.encode body <;> rfl

theorem cleared_send (conn : ConnId) (command : UInt8) (body : α) :
    s.cleared.send conn command body = (s.send conn command body).cleared :=
  s.cleared_sendAll [conn] command body

theorem cleared_announce (command : LobbyCommand) (body : α) :
    s.cleared.announce command body = (s.announce command body).cleared :=
  cleared_sendAll { s with announced := s.announced + 1 } _ command.toByte body

theorem cleared_andThen (h : Handled) {next next' : Server → Handled}
    (hnext : ∀ s : Server, next' s.cleared = (next s).cleared) :
    h.cleared.andThen next' = (h.andThen next).cleared := by
  unfold Handled.andThen
  rw [Handled.cleared_error]
  cases h.error with
  | some e => rfl
  | none =>
    simp only
    rw [show h.cleared.server = h.server.cleared from rfl, hnext]
    rfl

end Answers

section Handlers

variable (s : Server) (conn : ConnId) (payload : Bytes)

/-! ### The lobby -/

theorem cleared_login : s.cleared.login conn payload = (s.login conn payload).cleared := by
  unfold login
  cases readBody LoginRequest payload with
  | error e => rfl
  | ok request =>
    simp only
    rw [cleared_admission]
    cases s.admission.check request.account request.password with
    | error e => exact s.cleared_send _ _ _
    | ok u =>
      exact cleared_send { s with directory := (s.directory.login request.account conn).2 } _ _ _

theorem cleared_createRoom :
    s.cleared.createRoom conn payload = (s.createRoom conn payload).cleared := by
  unfold createRoom
  cases readBody CreateRoomRequest payload with
  | error e => rfl
  | ok request =>
    show (if s.directory.contains request.player then _ else _) = _
    simp only
    split
    · have hmade : s.cleared.registry.reclaim.2.create =
          (s.registry.reclaim.2.create.1, s.registry.reclaim.2.create.2.cleared) := by
        rw [cleared_registry, Registry.cleared_reclaim]
        exact s.registry.reclaim.2.cleared_create
      rw [hmade]
      exact cleared_announce { s with registry := s.registry.reclaim.2.create.2 } _ _
    · exact s.cleared_send _ _ _

theorem cleared_joinRoom : s.cleared.joinRoom conn payload = (s.joinRoom conn payload).cleared := by
  unfold joinRoom
  cases readBody JoinRoomRequest payload with
  | error e => rfl
  | ok request =>
    simp only [cleared_directory, cleared_registry, cleared_join]
    obtain ⟨result, directory, registry⟩ := join s.directory s.registry request.player request.room
    cases result with
    | error code => exact cleared_send { s with directory, registry } _ _ _
    | ok outcome =>
      have hannounced := cleared_announce { s with directory, registry } .joinRoom
        (JoinRoomReply.mk .ok request.room outcome.members)
      refine (congrArg (Handled.andThen · _) hannounced).trans (cleared_andThen _ fun s => ?_)
      -- the battle listener is started or not, by the number of members
      show (if s.registry.config.maxPlayers ≤ outcome.members.length then _ else _) = _
      split <;> rfl

theorem cleared_onLobby (p : Packet) : s.cleared.onLobby conn p = (s.onLobby conn p).cleared := by
  unfold onLobby
  cases LobbyCommand.ofByte p.command with
  | error e => rfl
  | ok command =>
    cases command with
    | login => exact s.cleared_login conn p.payload
    | createRoom => exact s.cleared_createRoom conn p.payload
    | joinRoom => exact s.cleared_joinRoom conn p.payload

/-! ### The battle channel -/

theorem cleared_resolve :
    s.cleared.resolve conn = (s.resolve conn).map fun x => (x.1, x.2.1, x.2.2.cleared) := by
  unfold resolve
  rw [cleared_directory]
  cases s.directory.playerByBattle conn with
  | none => rfl
  | some player =>
    simp only
    cases s.directory.roomOf player with
    | none => rfl
    | some room =>
      simp only
      rw [cleared_registry, Registry.cleared_get]
      cases s.registry.get room <;> rfl

theorem cleared_connect : s.cleared.connect conn payload = (s.connect conn payload).cleared := by
  unfold connect
  cases readBody ConnectRequest payload with
  | error e => rfl
  | ok request =>
    simp only
    rw [cleared_directory]
    cases s.directory.bindBattle request.player conn with
    | error e => exact s.cleared_send _ _ _
    | ok bound =>
      obtain ⟨old, directory⟩ := bound
      simp only
      cases directory.roomOf request.player with
      | none => exact cleared_send { s with directory } _ _ _
      | some room =>
        simp only
        rw [cleared_registry, Registry.cleared_get]
        cases s.registry.get room with
        | error e => exact cleared_send { s with directory } _ _ _
        | ok slot =>
          simp only [Except.map]
          rw [s.registry.cleared_put_snd room (slot.cleared_rebind request.player conn)]
          exact cleared_send { s with
            directory, registry := s.registry.put room (slot.rebind request.player conn).2 } _ _ _

theorem cleared_spawnTicker (room : RoomId) :
    s.cleared.spawnTicker room = (s.spawnTicker room).cleared := by
  unfold spawnTicker
  rw [cleared_registry, Registry.cleared_get]
  cases s.registry.get room with
  | error e => rfl
  | ok slot =>
    exact congrArg (fun registry => ({ s with registry } : Server))
      (s.registry.cleared_put_snd room (slot.cleared_spawnTicker s.now (s.chance.draw room)))

theorem cleared_ready : s.cleared.ready conn payload = (s.ready conn payload).cleared := by
  unfold ready
  cases readBody ReadyRequest payload with
  | error e => rfl
  | ok request =>
    show (if s.directory.playerByBattle conn ≠ some request.player then _ else _) = _
    simp only
    split
    · exact s.cleared_send _ _ _
    · rw [cleared_registry, Registry.cleared_get]
      cases s.registry.get request.room with
      | error e => exact s.cleared_send _ _ _
      | ok slot =>
        simp only [Except.map]
        rw [show slot.cleared.ready request.player conn s.cleared.now = _ from
          slot.cleared_ready request.player conn s.now]
        cases slot.ready request.player conn s.now with
        | error e => exact s.cleared_send _ _ _
        | ok became =>
          obtain ⟨outcome, slot'⟩ := became
          have hreplied := cleared_sendAll { s with registry := s.registry.put request.room slot' }
            outcome.recipients BattleCommand.ready.toByte
            (ReadyReply.mk .ok request.room outcome.roster)
          simp only [Except.map, Room.Slot.withCleared]
          rw [Registry.cleared_put]
          refine (congrArg (Handled.andThen · _) hreplied).trans (cleared_andThen _ fun s => ?_)
          cases outcome.start with
          | none => rfl
          | some announcement =>
            -- the start is announced, and then the ticker is started
            simp only
            rw [cleared_sendAll]
            refine cleared_andThen _ fun s => ?_
            rw [cleared_spawnTicker]
            rfl

theorem cleared_heartbeat :
    s.cleared.heartbeat conn payload = (s.heartbeat conn payload).cleared := by
  unfold heartbeat
  cases readBody HeartbeatRequest payload with
  | error e => rfl
  | ok request => exact s.cleared_send _ _ _

/-- **An input is recorded** with its low bit cleared, -/
theorem cleared_frame :
    s.cleared.frame conn (payload.modify 4 clearLow) = (s.frame conn payload).cleared := by
  unfold frame
  rw [readBody_frame_cleared]
  cases readBody FrameInput payload with
  | error e => rfl
  | ok input =>
    simp only [Except.map]
    rw [cleared_resolve]
    cases s.resolve conn with
    | none => rfl
    | some found =>
      obtain ⟨player, id, slot⟩ := found
      simp only [Option.map, Room.Slot.cleared_room, Room.cleared_recordInput]
      cases slot.room.recordInput player input with
      | error e => rfl
      | ok room =>
        exact congrArg (fun registry => silent { s with registry })
          (s.registry.cleared_put id { slot with room })

/-- **and an integrity value** is collected without the position that it comes with. -/
theorem cleared_check :
    s.cleared.check conn (payload.modify 4 fun _ => 0) = (s.check conn payload).cleared := by
  unfold check
  rw [readBody_check_cleared]
  cases readBody CheckRequest payload with
  | error e => rfl
  | ok request =>
    simp only [Except.map]
    rw [cleared_resolve]
    cases s.resolve conn with
    | none => exact s.cleared_send _ _ _
    | some found =>
      obtain ⟨player, id, slot⟩ := found
      simp only [Option.map, Room.Slot.cleared_room, Room.cleared_submitCheck]
      cases slot.room.submitCheck player request with
      | error e => exact s.cleared_send _ _ _
      | ok taken =>
        obtain ⟨verdict, room⟩ := taken
        have hput : s.cleared.registry.put id { slot.cleared with room := room.cleared } =
          (s.registry.put id { slot with room }).cleared :=
          s.registry.cleared_put id { slot with room }
        simp only [Except.map, Room.withCleared]
        rw [hput]
        cases verdict with
        | none => rfl
        | some verdict =>
          exact cleared_sendAll { s with registry := s.registry.put id { slot with room } } _ _ _

/-- **A battle packet** is handled as the one without the position it claims. -/
theorem cleared_onBattle (p : Packet) :
    s.cleared.onBattle conn p.cleared = (s.onBattle conn p).cleared := by
  obtain ⟨byte, payload⟩ := p
  unfold onBattle Packet.cleared
  cases hcommand : BattleCommand.ofByte byte with
  | error e =>
    simp only [hcommand]
    rfl
  | ok command =>
    cases command with
    | connect =>
      simp only [hcommand]
      exact s.cleared_connect conn payload
    | ready =>
      simp only [hcommand]
      exact s.cleared_ready conn payload
    | heartbeat =>
      simp only [hcommand]
      exact s.cleared_heartbeat conn payload
    | frame =>
      simp only [hcommand]
      exact s.cleared_frame conn payload
    | start =>
      simp only [hcommand]
      rfl
    | check =>
      simp only [hcommand]
      exact s.cleared_check conn payload

theorem cleared_battleDisconnected :
    s.cleared.battleDisconnected conn = (s.battleDisconnected conn).cleared := by
  unfold battleDisconnected
  rw [cleared_directory]
  obtain ⟨left, directory⟩ := s.directory.unbindBattle conn
  cases left with
  | none => rfl
  | some player =>
    simp only
    cases directory.roomOf player with
    | none => rfl
    | some room =>
      simp only
      rw [cleared_registry, Registry.cleared_get]
      cases s.registry.get room with
      | error e => rfl
      | ok slot =>
        exact congrArg (fun registry => ({ s with directory, registry } : Server))
          (s.registry.cleared_put_snd room (slot.cleared_disconnect player))

end Handlers

/-! ## Events -/

/-- An event without the position that its packet claims. -/
def Event.cleared : Event → Event
  | .battle conn p => .battle conn p.cleared
  | e => e

/-- The packet of an input, cleared, is that of the cleared input, -/
theorem Event.cleared_frame (conn : Nat) (i : FrameInput) :
    (Event.ofBattle conn .frame i).cleared = .ofBattle conn .frame i.cleared := by
  obtain ⟨frame, input⟩ := i
  have hbody : (encodeBody (FrameInput.mk frame input)).modify 4 clearLow =
      encodeBody (FrameInput.mk frame (clearLow input)) := by
    simp [encodeBody, Body.layout, Layout.pair, Layout.convert, Layout.u32, Layout.u8, Layout.word,
      Bytes.littleEndian]
  exact congrArg (fun payload => Event.battle ⟨conn⟩ ⟨BattleCommand.frame.toByte, payload⟩) hbody

/-- and so for an integrity value. -/
theorem Event.cleared_check (conn : Nat) (c : CheckRequest) :
    (Event.ofBattle conn .check c).cleared = .ofBattle conn .check c.cleared := by
  obtain ⟨frame, position, value⟩ := c
  have hbody : (encodeBody (CheckRequest.mk frame position value)).modify 4 (fun _ => 0) =
      encodeBody (CheckRequest.mk frame 0 value) := by
    simp [encodeBody, Body.layout, Layout.pair, Layout.convert, Layout.u32, Layout.u8, Layout.word,
      Bytes.littleEndian]
  exact congrArg (fun payload => Event.battle ⟨conn⟩ ⟨BattleCommand.check.toByte, payload⟩) hbody

theorem cleared_new (setup : Setup) : (new setup).cleared = new setup := rfl

theorem cleared_advance (s : Server) (start target : Nat) :
    s.cleared.advance start target =
      ((s.advance start target).1, (s.advance start target).2.cleared) :=
  congrArg
    (fun x : List Room.Firing × Registry => (x.1, ({ s with registry := x.2, now := target } : Server)))
    (s.registry.cleared_advance s.encoder start target)

/-- **One event** is reported in the same way by the cleared server, and leaves the cleared state.
-/
theorem step_cleared (s : Server) (e : Event) :
    s.cleared.step e.cleared = ((s.step e).1, (s.step e).2.cleared) := by
  cases e with
  | lobby conn p =>
    have h : s.cleared.onLobby conn p = _ := s.cleared_onLobby conn p
    simp only [Event.cleared, step, h]
    rfl
  | battle conn p =>
    have h : s.cleared.onBattle conn p.cleared = _ := s.cleared_onBattle conn p
    simp only [Event.cleared, step, h]
    rfl
  | notice => rfl
  | lobbyDisconnected conn => rfl
  | battleDisconnected conn =>
    exact congrArg (Prod.mk (Report.quiet .done)) (s.cleared_battleDisconnected conn)
  | cut conn => rfl
  | closeRoom room =>
    simp only [Event.cleared, step]
    rw [cleared_registry, Registry.cleared_close]
    cases s.registry.close room <;> rfl
  | reclaim =>
    simp only [Event.cleared, step]
    rw [cleared_registry, Registry.cleared_reclaim, Table.size_mapValues]
    rfl
  | shutdownRooms =>
    exact congrArg (fun registry => (Report.quiet .done, ({ s with registry } : Server)))
      s.registry.cleared_shutdown
  | sleep ms =>
    simp only [Event.cleared, step, cleared_advance]
    rfl
  | jump ms =>
    simp only [Event.cleared, step, cleared_advance]
    rfl

/-- **A whole run**, event by event. -/
theorem run_cleared (s : Server) (es : List Event) :
    run s.cleared (es.map Event.cleared) = ((run s es).1, (run s es).2.cleared) := by
  induction es generalizing s with
  | nil => rfl
  | cons e es ih =>
    rw [List.map_cons, run, step_cleared]
    simp only [ih]
    rfl

/-- **Claimed positions have no effect.** Two runs of the same events, up to the low bit of the
input in a `frame` and the position in a `check`, are reported in the same way event by event: the
same answers, the same ticks, and the same packets to the same connections in the same order. The
states they end in agree in everything but the low bits of the stored inputs. Both runs have in
common whatever the tickers of the rooms draw and the orders in which connections are listed
(`chance`), and how the tickers take turns (`rota`). -/
theorem claims_have_no_effect (setup : Setup) (chance : Chance) (rota : Room.Rota)
    (es es' : List Event) (h : es.map Event.cleared = es'.map Event.cleared) :
    let start := new { setup with chance, rota }
    (run start es).1 = (run start es').1 ∧
      (run start es).2.cleared = (run start es').2.cleared := by
  intro start
  -- both have the image of one run, the one without claimed positions
  have himage : run start (es.map Event.cleared) = run start (es'.map Event.cleared) := by
    rw [h]
  have hcleared : start.cleared = start := cleared_new _
  have hrun := run_cleared start es
  have hrun' := run_cleared start es'
  rw [hcleared] at hrun hrun'
  exact Prod.mk.inj (hrun.symm.trans (himage.trans hrun'))

/-! ### Two players who claim positions -/

/-- Both players of a pair report the same value for frame 0, one of them from the given position,
with the given input for the frame after the next, and time passes. -/
def pairClaims (input position : UInt8) : List Event :=
  pairRun 13 ++ [.ofBattle 13 .frame (FrameInput.mk 2 input),
    .ofBattle 13 .check (CheckRequest.mk 0 position 7),
    .ofBattle 11 .check (CheckRequest.mk 0 0 7), .sleep 200]

/-- Player 102 sits on position 1 and claims either. -/
theorem claims_have_no_effect_pair :
    let start := new { pairSetup with chance := lateDownward }
    (pairClaims 0x45 1).map Event.cleared = (pairClaims 0x44 0).map Event.cleared ∧
      (run start (pairClaims 0x45 1)).1 = (run start (pairClaims 0x44 0)).1 := by
  intro start
  have h : (pairClaims 0x45 1).map Event.cleared = (pairClaims 0x44 0).map Event.cleared := by
    simp only [pairClaims, List.map_append, List.map_cons, Event.cleared_frame, Event.cleared_check]
    rfl
  exact ⟨h, (claims_have_no_effect pairSetup lateDownward .inTurn _ _ h).1⟩

end Server

end FrameSync
