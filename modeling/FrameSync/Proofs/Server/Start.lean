import FrameSync.Proofs.Room.Turns
import FrameSync.Proofs.Server.Agreement

/-!
# How a battle starts

The last `ready` that a full room waits for starts its battle: the roster goes to everybody who is
ready, then the announcement, and then the ticker runs. What a run shows of one room is its
`timeline`, the announcements and the frames in the order in which they are sent.
`start_protocol` says that there is nothing on it, or one announcement and after it the frames 0, 1,
2 and so on, and which event makes the announcement, to whom.

A room keeps the count in its next frame. There is none before the battle, the start sets it to 0,
and a tick counts it up by the frame that it broadcasts; nothing else touches it (`Moves`). So the
timeline is that of the next frame as long as the room is tracked (`Recounts`), and afterwards
nothing is added to it. The mark that a ticker has been started goes with the next frame, and keeps
a second one from being started.
-/

set_option autoImplicit false

namespace FrameSync.Server

open Wire Tick

/-! ## What is sent -/

/-- What an event sends on the battle channel, whether or not it arrives. -/
def battleSent (s : Server) : Event → List Delivery
  | .battle conn p => (s.onBattle conn p).sent
  | e => (s.step e).1.ticks.flatMap Room.Firing.sent

/-- What arrives is what is sent to connections that can be reached. -/
theorem step_battle (s : Server) (e : Event) :
    (s.step e).1.battle = s.sink.accept (s.battleSent e) := by
  cases e with
  | closeRoom id =>
    rw [battleSent, step]
    · cases s.registry.close id <;> rfl
    · intro conn p h
      cases h
  | _ => rfl

/-- What is to be seen of a room: its battle is announced, or a frame is broadcast. -/
inductive Moment where
  | start
  | frame (number : UInt32)
deriving DecidableEq, Repr

/-- Does the event announce the battle of the room? An announcement does not name the room; it is
that of the `ready` that brings it about. -/
def announces (s : Server) (e : Event) (id : RoomId) : Bool :=
  match e.ready? with
  | none => false
  | some (_, request) =>
    request.room = id &&
      (s.battleSent e).any fun d => d.packet.command = BattleCommand.start.toByte

/-- What an event shows of a room. -/
def moments (s : Server) (e : Event) (id : RoomId) : List Moment :=
  (if s.announces e id then [.start] else []) ++
    ((s.step e).1.ticks.filter fun f => f.room = id).map fun f => .frame f.frame

/-- Does the event create the room? It then has the next number. -/
def makes (s : Server) (e : Event) (id : RoomId) : Bool :=
  match e.create? with
  | none => false
  | some request =>
    s.directory.contains request.player && s.registry.roomId (s.registry.created + 1) = id

/-- What there is to be seen of a room after an event. What was seen under a number before it is
given to a new room is not of that room. -/
def extend (s : Server) (e : Event) (id : RoomId) (seen : List Moment) : List Moment :=
  (if s.makes e id then [] else seen) ++ s.moments e id

/-- What events add to what is to be seen of a room. -/
def extendAll (id : RoomId) : Server → List Event → List Moment → List Moment
  | _, [], seen => seen
  | s, e :: es, seen => extendAll id (s.step e).2 es (s.extend e id seen)

/-- What a run shows of a room. -/
def timeline (setup : Setup) (es : List Event) (id : RoomId) : List Moment :=
  extendAll id (new setup) es []

theorem extendAll_append (id : RoomId) (s : Server) (es es' : List Event) (seen : List Moment) :
    extendAll id s (es ++ es') seen = extendAll id (run s es).2 es' (extendAll id s es seen) := by
  induction es generalizing s seen with
  | nil => rfl
  | cons e es ih => exact ih (s.step e).2 (s.extend e id seen)

theorem timeline_snoc (setup : Setup) (es : List Event) (e : Event) (id : RoomId) :
    timeline setup (es ++ [e]) id =
      (stateAfter setup es).extend e id (timeline setup es id) :=
  extendAll_append id (new setup) es [e] []

/-! ## Becoming ready -/

/-- The roster, for everybody who is ready. -/
def replies (id : RoomId) (room : Room) : List Delivery :=
  Delivery.toEach room.recipients BattleCommand.ready.toByte
    (encodeBody (ReadyReply.mk .ok id room.roster))

/-- The announcement of the battle, for everybody who is ready. -/
def announcements (room : Room) : List Delivery :=
  Delivery.toEach room.recipients BattleCommand.start.toByte
    (encodeBody (StartBroadcast.mk .ok 0 0))

/-- How the handling of a `ready` can end: what is sent, and what becomes of the rooms. It is
refused; or the player is ready, and the room goes on waiting, or playing; or the player is the last
one, and the battle starts. -/
inductive ReadyEnds (s : Server) (conn : ConnId) (request : ReadyRequest) :
    List Delivery → Table RoomId Room.Slot → Prop where
  | refused (code : BattleCode) :
    ReadyEnds s conn request
      (Delivery.toEach [conn] BattleCommand.ready.toByte
        (encodeBody (ReadyReply.mk code request.room [])))
      s.registry.rooms
  | waits (slot : Room.Slot) (room : Room) (outcome : Room.Readied) :
    s.registry.rooms.get? request.room = some slot →
    slot.room.becomeReady request.player conn s.now = .ok (outcome, room) → outcome.start = none →
    ReadyEnds s conn request (replies request.room room)
      (s.registry.rooms.update request.room fun _ => { slot with room })
  | starts (slot : Room.Slot) (room : Room) (outcome : Room.Readied) :
    s.registry.rooms.get? request.room = some slot →
    slot.room.becomeReady request.player conn s.now = .ok (outcome, room) →
    outcome.start = some ⟨.ok, 0, 0⟩ →
    ReadyEnds s conn request (replies request.room room ++ announcements room)
      (s.registry.rooms.update request.room fun _ =>
        ({ slot with room }.spawnTicker s.now (s.chance.draw request.room)).2)

section Ready

variable {s : Server} {e : Event} {conn : ConnId} {request : ReadyRequest} {id : RoomId}

theorem eq_battle_of_ready (h : e.ready? = some (conn, request)) :
    ∃ p, e = .battle conn p ∧ BattleCommand.ofByte p.command = .ok .ready ∧
      readBody ReadyRequest p.payload = .ok request := by
  unfold Event.ready? at h
  split at h
  · rename_i conn' p
    split at h
    · rename_i hcommand hrequest
      cases h
      exact ⟨p, rfl, hcommand, hrequest⟩
    · cases h
  · cases h

/-- Every body can be written. -/
theorem sendAll_standard {α : Type} [Body α] (hencoder : s.encoder = .standard)
    (conns : List ConnId) (command : UInt8) (body : α) :
    s.sendAll conns command body = ⟨none, Delivery.toEach conns command (encodeBody body), s⟩ := by
  rw [sendAll, hencoder]
  rfl

/-- **The handling of a `ready`** ends in one of these ways. -/
theorem ready_ends (hencoder : s.encoder = .standard) (h : e.ready? = some (conn, request)) :
    ReadyEnds s conn request (s.battleSent e) (s.step e).2.registry.rooms := by
  obtain ⟨p, rfl, hcommand, hrequest⟩ := eq_battle_of_ready h
  simp only [battleSent, step, onBattle, hcommand, ready, hrequest, refuseReady, send]
  split
  · rw [sendAll_standard hencoder]
    exact .refused .playerNotFound
  · cases hget : s.registry.get request.room with
    | error error =>
      simp only
      rw [sendAll_standard hencoder]
      exact .refused error.battleCode
    | ok slot =>
      have hslot := get_eq_ok_iff.mp hget
      cases hready : slot.ready request.player conn s.now with
      | error error =>
        simp only [hready]
        rw [sendAll_standard hencoder]
        exact .refused error.battleCode
      | ok readied =>
        obtain ⟨outcome, slot'⟩ := readied
        obtain ⟨hbecome, hslot'⟩ := slot_ready_eq_ok conn hready
        have hput : (s.registry.put request.room slot').rooms.get? request.room = some slot' := by
          rw [put_rooms, Table.get?_update, if_pos rfl, hslot]
          rfl
        let s' : Server := { s with registry := s.registry.put request.room slot' }
        have hencoder' : s'.encoder = .standard := hencoder
        simp only [hready]
        rw [sendAll_standard hencoder']
        simp only [Handled.andThen]
        obtain ⟨-, -, hroster, hrecipients, hends⟩ := Room.becomeReady_eq_ok hbecome
        rw [hroster, hrecipients]
        rcases hends with ⟨-, -, hstart⟩ | ⟨-, -, hstart⟩
        · simp only [hstart]
          rw [sendAll_standard hencoder']
          simp only [silent, List.append_nil]
          rw [spawnTicker_rooms _ hput, put_rooms, Table.update_update, hslot']
          exact .starts slot slot'.room outcome hslot hbecome hstart
        · simp only [hstart, silent, List.append_nil]
          rw [put_rooms, hslot']
          exact .waits slot slot'.room outcome hslot hbecome hstart

/-- What is sent to each of several connections is one packet. -/
theorem command_of_mem_toEach {conns : List ConnId} {command : UInt8} {payload : Bytes}
    {d : Delivery} (h : d ∈ Delivery.toEach conns command payload) :
    d.packet.command = command := by
  obtain ⟨c, -, rfl⟩ := List.mem_map.mp h
  rfl

theorem command_of_mem_sendAll {α : Type} [Body α] {conns : List ConnId} {command : UInt8}
    {body : α} {d : Delivery} (h : d ∈ (s.sendAll conns command body).sent) :
    d.packet.command = command := by
  rw [sendAll] at h
  split at h
  · exact absurd h List.not_mem_nil
  · exact command_of_mem_toEach h

section Answers

variable {payload : Bytes} {d : Delivery}

theorem command_of_mem_connect (h : d ∈ (s.connect conn payload).sent) :
    d.packet.command = BattleCommand.connect.toByte := by
  rw [connect] at h
  split at h
  · exact absurd h List.not_mem_nil
  · split at h <;> exact command_of_mem_sendAll h

theorem command_of_mem_heartbeat (h : d ∈ (s.heartbeat conn payload).sent) :
    d.packet.command = BattleCommand.heartbeat.toByte := by
  rw [heartbeat] at h
  split at h
  · exact absurd h List.not_mem_nil
  · exact command_of_mem_sendAll h

/-- An input is not answered. -/
theorem sent_frame : (s.frame conn payload).sent = [] := by
  rw [frame]
  split
  · rfl
  · split
    · rfl
    · split <;> rfl

theorem command_of_mem_check (h : d ∈ (s.check conn payload).sent) :
    d.packet.command = BattleCommand.check.toByte := by
  rw [check] at h
  split at h
  · exact absurd h List.not_mem_nil
  · split at h
    · exact command_of_mem_sendAll h
    · split at h
      · exact command_of_mem_sendAll h
      · simp only at h
        split at h
        · exact absurd h List.not_mem_nil
        · exact command_of_mem_sendAll h

/-- **What answers a battle packet** that is no `ready` is no announcement and no frame. -/
theorem command_of_mem_onBattle {p : Packet} (h : d ∈ (s.onBattle conn p).sent) :
    (∃ request, (Event.battle conn p).ready? = some (conn, request)) ∨
      d.packet.command ≠ BattleCommand.start.toByte ∧
        d.packet.command ≠ BattleCommand.frame.toByte := by
  have hnone : d ∉ ([] : List Delivery) := List.not_mem_nil
  rw [onBattle] at h
  split at h
  · exact absurd h hnone
  · rw [command_of_mem_connect h]
    exact Or.inr (by decide)
  · rename_i hcommand
    cases hrequest : readBody ReadyRequest p.payload with
    | error error =>
      rw [ready, hrequest] at h
      exact absurd h hnone
    | ok request =>
      refine Or.inl ⟨request, ?_⟩
      simp only [Event.ready?, hcommand, hrequest]
  · rw [command_of_mem_heartbeat h]
    exact Or.inr (by decide)
  · rw [sent_frame] at h
    exact absurd h hnone
  · exact absurd h hnone
  · rw [command_of_mem_check h]
    exact Or.inr (by decide)

end Answers

theorem announces_eq_any (h : e.ready? = some (conn, request)) (id : RoomId) :
    s.announces e id = (decide (request.room = id) &&
      (s.battleSent e).any fun d => d.packet.command = BattleCommand.start.toByte) := by
  rw [announces, h]

/-- Who has become ready is among those who are. -/
theorem mem_roster_of_becomeReady {room room' : Room} {player : PlayerId} {now : Nat}
    {outcome : Room.Readied} (h : room.becomeReady player conn now = .ok (outcome, room')) :
    player ∈ room'.roster := by
  have henrol : player ∈ (room.enrol player conn).roster := Room.mem_roster_enrol.mpr (Or.inl rfl)
  obtain ⟨-, -, -, -, ⟨-, rfl, -⟩ | ⟨-, rfl, -⟩⟩ := Room.becomeReady_eq_ok h
  · exact henrol
  · exact henrol

/-- Somebody is sent the announcement. -/
theorem any_announcements {room : Room} {player : PlayerId} (h : player ∈ room.roster) :
    (announcements room).any (fun d => d.packet.command = BattleCommand.start.toByte) = true := by
  obtain ⟨entry, hentry, -⟩ := Room.mem_roster_iff.mp h
  rw [List.any_eq_true]
  refine ⟨_, List.mem_map_of_mem (List.mem_map_of_mem hentry), ?_⟩
  exact decide_eq_true rfl

theorem not_any_toEach_ready (conns : List ConnId) (payload : Bytes) :
    (Delivery.toEach conns BattleCommand.ready.toByte payload).any
      (fun d => d.packet.command = BattleCommand.start.toByte) = false := by
  rw [List.any_eq_false]
  intro d hd
  rw [command_of_mem_toEach hd]
  decide

/-- **What a `ready` announces**: the battle of the room that it completes, or none. -/
theorem ready_cases (hencoder : s.encoder = .standard) (h : e.ready? = some (conn, request)) :
    ((∀ id, s.announces e id = false) ∧
      ((s.step e).2.registry.rooms = s.registry.rooms ∨
        ∃ slot room outcome, s.registry.rooms.get? request.room = some slot ∧
          slot.room.becomeReady request.player conn s.now = .ok (outcome, room) ∧
          outcome.start = none ∧
          (s.step e).2.registry.rooms =
            s.registry.rooms.update request.room fun _ => { slot with room })) ∨
    ∃ slot room outcome, (∀ id, s.announces e id = decide (request.room = id)) ∧
      s.registry.rooms.get? request.room = some slot ∧
      slot.room.becomeReady request.player conn s.now = .ok (outcome, room) ∧
      outcome.start = some ⟨.ok, 0, 0⟩ ∧
      s.battleSent e = replies request.room room ++ announcements room ∧
      (s.step e).2.registry.rooms =
        s.registry.rooms.update request.room fun _ =>
          ({ slot with room }.spawnTicker s.now (s.chance.draw request.room)).2 := by
  have hannounces := announces_eq_any (s := s) h
  have hends := ready_ends hencoder h
  generalize s.battleSent e = sent at hannounces hends ⊢
  generalize (s.step e).2.registry.rooms = rooms at hends ⊢
  cases hends with
  | refused code =>
    refine Or.inl ⟨fun id => ?_, Or.inl rfl⟩
    rw [hannounces, not_any_toEach_ready, Bool.and_false]
  | waits slot room outcome hget hbecome hstart =>
    refine Or.inl ⟨fun id => ?_, Or.inr ⟨slot, room, outcome, hget, hbecome, hstart, rfl⟩⟩
    rw [hannounces, replies, not_any_toEach_ready, Bool.and_false]
  | starts slot room outcome hget hbecome hstart =>
    refine Or.inr ⟨slot, room, outcome, fun id => ?_, hget, hbecome, hstart, rfl, rfl⟩
    rw [hannounces, List.any_append, any_announcements (mem_roster_of_becomeReady hbecome),
      Bool.or_true, Bool.and_true]

end Ready

/-! ## How a slot moves -/

/-- Is the event the passing of time? -/
def Event.passes : Event → Bool
  | .sleep _ | .jump _ => true
  | _ => false

/-- The room goes on without a start or a frame, and the ticker goes on or is stopped. The room is
as it was, or an operation has been carried out on it; the next frame stays the next, the mark that
the ticker has been started stays as it is, and there is no new ticker. -/
structure Quiet (slot slot' : Room.Slot) : Prop where
  room : slot'.room = slot.room ∨ ∃ op, slot'.room = (slot.room.apply op).2
  next : slot'.room.nextFrame = slot.room.nextFrame
  started : slot'.tickerStarted = slot.tickerStarted
  ticker : slot'.ticker = slot.ticker ∨ slot'.ticker = none

/-- What an event can do to a slot, and what is then to be seen of the room: nothing, the start of
the battle, or the frames for which the ticker runs. -/
inductive Moves (s : Server) (e : Event) (slot : Room.Slot) :
    Room.Slot → List Moment → Prop where
  | quiet (slot' : Room.Slot) : Quiet slot slot' → Moves s e slot slot' []
  | announced (player : PlayerId) (conn : ConnId) (room : Room) (outcome : Room.Readied)
    (draw : Nat) :
    slot.room.becomeReady player conn s.now = .ok (outcome, room) →
    outcome.start = some ⟨.ok, 0, 0⟩ →
    Moves s e slot ({ slot with room }.spawnTicker s.now draw).2 [.start]
  | ticked (start target : Nat) : e.passes = true →
    Moves s e slot (slot.runTicker s.encoder start target).2
      ((slot.runTicker s.encoder start target).1.map fun f => .frame f.frame)

section Moves

variable {s : Server} {e : Event} {id : RoomId} {slot slot' : Room.Slot} {d : Directory}
  {rooms rooms' : Table RoomId Room.Slot} {f : Room.Slot → Room.Slot}

theorem Quiet.refl (slot : Room.Slot) : Quiet slot slot := ⟨Or.inl rfl, rfl, rfl, Or.inl rfl⟩

/-- An operation on the room, which is neither a tick nor what starts the battle. -/
theorem Quiet.onRoom (hwell : slot.room.WellFormed) (op : Room.Op) (htick : op ≠ .tick)
    (hstart : ∀ outcome, (slot.room.apply op).1 = .readied outcome → outcome.start = none) :
    Quiet slot { slot with room := (slot.room.apply op).2 } :=
  ⟨Or.inr ⟨op, rfl⟩, (Room.change_apply hwell op).nextFrame_eq htick hstart, rfl, Or.inl rfl⟩

/-- So does one that stops the ticker. -/
theorem Quiet.stop (h : Quiet slot slot') : Quiet slot slot'.stop :=
  ⟨h.room, h.next, h.started, Or.inr rfl⟩

/-- The slots after one of them has moved quietly. -/
theorem quiet_update {id' : RoomId}
    (h : ∀ slot, rooms.get? id' = some slot → Quiet slot (f slot))
    (hget : (rooms.update id' f).get? id = some slot') :
    ∃ slot, rooms.get? id = some slot ∧ Quiet slot slot' := by
  rw [Table.get?_update_ite] at hget
  split at hget
  · rename_i hid
    subst hid
    obtain ⟨slot, hslot, rfl⟩ := Option.map_eq_some_iff.mp hget
    exact ⟨slot, hslot, h slot hslot⟩
  · exact ⟨slot', hget, .refl slot'⟩

theorem quiet_onRoomOf {player : PlayerId}
    (h : ∀ id slot, rooms.get? id = some slot → Quiet slot (f slot))
    (hget : (onRoomOf d player f rooms).get? id = some slot') :
    ∃ slot, rooms.get? id = some slot ∧ Quiet slot slot' := by
  rw [onRoomOf] at hget
  split at hget
  · exact ⟨slot', hget, .refl slot'⟩
  · exact quiet_update (h _) hget

theorem quiet_rebind (hwell : slot.room.WellFormed) (player : PlayerId) (conn : ConnId) :
    Quiet slot (slot.rebind player conn).2 := .onRoom hwell (.rebind player conn) nofun nofun

theorem quiet_ready (hwell : slot.room.WellFormed) {player : PlayerId} {conn : ConnId} {now : Nat}
    {room : Room} {outcome : Room.Readied}
    (hbecome : slot.room.becomeReady player conn now = .ok (outcome, room))
    (hstart : outcome.start = none) : Quiet slot { slot with room } := by
  have happly : slot.room.apply (.ready player conn now) = (.readied outcome, room) := by
    rw [Room.apply, hbecome]
  have hquiet := Quiet.onRoom hwell (.ready player conn now) (fun h => by cases h)
    (by rw [happly]; rintro _ ⟨⟩; exact hstart)
  rwa [happly] at hquiet

theorem quiet_disconnect (hwell : slot.room.WellFormed) (player : PlayerId) :
    Quiet slot (slot.disconnect player).2 := by
  have hquiet := Quiet.onRoom hwell (.disconnect player) nofun nofun
  rw [Room.Slot.disconnect]
  simp only
  split
  · exact hquiet.stop
  · exact hquiet

theorem quiet_close (hwell : slot.room.WellFormed) : Quiet slot slot.close :=
  (Quiet.onRoom hwell .close nofun nofun).stop

theorem makes_eq_true {request : CreateRoomRequest} (hcreate : e.create? = some request)
    (hcontains : s.directory.contains request.player = true)
    (hid : s.registry.roomId (s.registry.created + 1) = id) : s.makes e id = true := by
  simp only [makes, hcreate, hcontains, hid, decide_true, Bool.and_true]

/-- **An event that is no `ready`, and not the passing of time,** is quiet for every room that it
does not create. -/
theorem quiet_change
    (hwell : ∀ id slot, s.registry.rooms.get? id = some slot → slot.room.WellFormed)
    (hchange : Change s e d rooms) (hmakes : s.makes e id = false) (hready : e.ready? = none)
    (hpasses : e.passes = false) (hget : rooms.get? id = some slot') :
    ∃ slot, s.registry.rooms.get? id = some slot ∧ Quiet slot slot' := by
  cases hchange with
  | idle | loggedIn | lobbyLeft => exact ⟨slot', hget, .refl slot'⟩
  | created conn p request hcreate hcontains =>
    have hinsert := (Table.get?_insert_ite _ _ _ _).symm.trans hget
    split at hinsert
    · -- this would be the new room
      rename_i hid
      rw [makes_eq_true hcreate hcontains hid.symm] at hmakes
      cases hmakes
    · exact ⟨slot', mem_reclaim hinsert, .refl slot'⟩
  | joined conn p player id' slot room outcome d' hcontains hfree hslot hjoin hset =>
    refine quiet_update (fun slot₁ hslot₁ => ?_) hget
    cases hslot.symm.trans hslot₁
    -- to the slot a join is an operation on its room that neither ticks nor starts the battle
    have happly : slot.room.apply (.join player) = (.joined outcome, room) := by
      rw [Room.apply, hjoin]
    have hquiet := Quiet.onRoom (hwell id' slot hslot) (.join player) (fun h => by cases h)
      (by rw [happly]; intro outcome h; cases h)
    rwa [happly] at hquiet
  | bound conn p request replaced d' hconnect hbind =>
    exact quiet_onRoomOf (fun id slot hslot => quiet_rebind (hwell id slot hslot) _ _) hget
  | readied conn p player id' slot slot₁ outcome hasks =>
    rw [hasks] at hready
    cases hready
  | played conn p player id' slot op hplayer hroom hslot hop =>
    refine quiet_update (fun slot₁ hslot₁ => ?_) hget
    cases hslot.symm.trans hslot₁
    refine Quiet.onRoom (hwell id' slot hslot) op ?_ ?_
    · intro h
      rcases hop with ⟨i, rfl⟩ | ⟨c, rfl⟩ <;> cases h
    · intro outcome hanswer
      rcases hop with ⟨i, rfl⟩ | ⟨c, rfl⟩ <;>
      · simp only [Room.apply] at hanswer
        split at hanswer <;> cases hanswer
  | battleLeft conn player hplayer =>
    exact quiet_onRoomOf (fun id slot hslot => quiet_disconnect (hwell id slot hslot) _) hget
  | closed id' => exact quiet_update (fun slot hslot => quiet_close (hwell _ slot hslot)) hget
  | reclaimed => exact ⟨slot', mem_reclaim hget, .refl slot'⟩
  | shut =>
    rw [Table.get?_mapValues] at hget
    obtain ⟨slot, hslot, rfl⟩ := Option.map_eq_some_iff.mp hget
    exact ⟨slot, hslot, quiet_close (hwell id slot hslot)⟩
  | passed e start target htime =>
    rcases htime with ⟨ms, rfl⟩ | ⟨ms, rfl⟩ <;> cases hpasses

/-- When time passes, the tickers run. -/
theorem step_passes (hpasses : e.passes = true) :
    ∃ start target, (s.step e).1.ticks = (s.registry.advance s.encoder start target).1 ∧
      (s.step e).2.registry.rooms =
        s.registry.rooms.mapValues fun slot => (slot.runTicker s.encoder start target).2 := by
  cases e with
  | sleep ms => exact ⟨_, _, rfl, rfl⟩
  | jump ms => exact ⟨_, _, rfl, rfl⟩
  | _ => cases hpasses

theorem ticks_eq_nil (hpasses : e.passes = false) : (s.step e).1.ticks = [] := by
  cases e with
  | sleep | jump => cases hpasses
  | closeRoom id =>
    rw [step]
    cases s.registry.close id <;> rfl
  | _ => rfl

theorem announces_eq_false (hready : e.ready? = none) (id : RoomId) : s.announces e id = false := by
  rw [announces, hready]

theorem moments_eq_nil (hpasses : e.passes = false) (hannounces : s.announces e id = false) :
    s.moments e id = [] := by
  rw [moments, hannounces, ticks_eq_nil hpasses]
  rfl

theorem ready_of_passes (hpasses : e.passes = true) : e.ready? = none := by
  cases e with
  | sleep | jump => rfl
  | _ => cases hpasses

/-- The registry is in order: rooms are well formed and tracked under their numbers. -/
def Tracked (rooms : Table RoomId Room.Slot) : Prop :=
  ∀ id slot, rooms.get? id = some slot → slot.room.WellFormed ∧ slot.room.id = id

/-- What the passing of time shows of a room is what its ticker sends. -/
theorem moments_passes (htracked : Tracked s.registry.rooms) (hpasses : e.passes = true)
    {start target : Nat}
    (hticks : (s.step e).1.ticks = (s.registry.advance s.encoder start target).1) (id : RoomId) :
    s.moments e id =
      match s.registry.rooms.get? id with
      | none => []
      | some slot => (slot.runTicker s.encoder start target).1.map fun f => .frame f.frame := by
  rw [moments, announces_eq_false (ready_of_passes hpasses), hticks,
    Registry.firings_advance htracked]
  cases s.registry.rooms.get? id <;> rfl

/-- A room that is created is new, and nothing is to be seen of it. -/
theorem makes_step (hmakes : s.makes e id = true) :
    (s.step e).2.registry.rooms.get? id =
        some (.ofRoom (Room.new id s.registry.config) s.registry.stopped) ∧
      s.moments e id = [] := by
  rw [makes] at hmakes
  split at hmakes
  · cases hmakes
  · rename_i request hcreate
    rw [Bool.and_eq_true, decide_eq_true_eq] at hmakes
    obtain ⟨hcontains, hid⟩ := hmakes
    constructor
    · rw [registry_of_create hcreate hcontains, ← hid]
      refine (Table.get?_insert _ _ _ _).trans ?_
      exact if_pos rfl
    · cases e with
      | lobby conn p => rfl
      | _ => cases hcreate

/-- A `ready` moves its room, and leaves the others alone. -/
theorem moves_ready (hencoder : s.encoder = .standard) (htracked : Tracked s.registry.rooms)
    {conn : ConnId} {request : ReadyRequest} (hready : e.ready? = some (conn, request))
    (hpasses : e.passes = false) (hget : (s.step e).2.registry.rooms.get? id = some slot') :
    ∃ slot, s.registry.rooms.get? id = some slot ∧ Moves s e slot slot' (s.moments e id) := by
  rcases ready_cases hencoder hready with ⟨hannounces, hrooms⟩ |
    ⟨slot, room, outcome, hannounces, hslot, hbecome, hstart, -, hrooms⟩
  · rw [moments_eq_nil hpasses (hannounces id)]
    rcases hrooms with hrooms | ⟨slot, room, outcome, hslot, hbecome, hstart, hrooms⟩
    · rw [hrooms] at hget
      exact ⟨slot', hget, .quiet slot' (.refl slot')⟩
    · rw [hrooms] at hget
      obtain ⟨slot₁, hslot₁, hquiet⟩ := quiet_update (fun slot₁ hslot₁ => by
        cases hslot.symm.trans hslot₁
        exact quiet_ready (htracked _ slot hslot).1 hbecome hstart) hget
      exact ⟨slot₁, hslot₁, .quiet slot' hquiet⟩
  · rw [hrooms, Table.get?_update_ite] at hget
    by_cases hid : request.room = id
    · -- this is the room whose battle starts
      have hmoments : s.moments e id = [.start] := by
        rw [moments, hannounces, decide_eq_true hid, ticks_eq_nil hpasses]
        rfl
      rw [hmoments]
      subst hid
      rw [if_pos rfl, hslot] at hget
      cases hget
      exact ⟨slot, hslot, .announced request.player conn room outcome _ hbecome hstart⟩
    · rw [moments_eq_nil hpasses ((hannounces id).trans (decide_eq_false hid))]
      rw [if_neg (Ne.symm hid)] at hget
      exact ⟨slot', hget, .quiet slot' (.refl slot')⟩

/-- **Every event moves every room in one of the ways**, or creates it. -/
theorem moves_step (hencoder : s.encoder = .standard) (htracked : Tracked s.registry.rooms)
    (hmakes : s.makes e id = false) (hget : (s.step e).2.registry.rooms.get? id = some slot') :
    ∃ slot, s.registry.rooms.get? id = some slot ∧ Moves s e slot slot' (s.moments e id) := by
  by_cases hpasses : e.passes = true
  · -- the tickers run
    obtain ⟨start, target, hticks, hrooms⟩ := step_passes (s := s) hpasses
    rw [hrooms, Table.get?_mapValues] at hget
    obtain ⟨slot, hslot, rfl⟩ := Option.map_eq_some_iff.mp hget
    have hmoments := moments_passes htracked hpasses hticks id
    rw [hslot] at hmoments
    rw [hmoments]
    exact ⟨slot, hslot, .ticked start target hpasses⟩
  have hpasses := Bool.eq_false_iff.mpr hpasses
  cases hready : e.ready? with
  | none =>
    have hmoments := moments_eq_nil hpasses (announces_eq_false (s := s) hready id)
    rw [hmoments]
    obtain ⟨slot, hslot, hquiet⟩ := quiet_change (fun id slot hslot => (htracked id slot hslot).1)
      (change_step s e) hmakes hready hpasses hget
    exact ⟨slot, hslot, .quiet slot' hquiet⟩
  | some asked =>
    exact moves_ready hencoder htracked hready hpasses hget

/-- Nothing is to be seen of a room that is not tracked any more. -/
theorem moments_of_untracked (hencoder : s.encoder = .standard)
    (htracked : Tracked s.registry.rooms) (e : Event)
    (hget : (s.step e).2.registry.rooms.get? id = none) : s.moments e id = [] := by
  by_cases hpasses : e.passes = true
  · obtain ⟨start, target, hticks, hrooms⟩ := step_passes (s := s) hpasses
    rw [hrooms, Table.get?_mapValues, Option.map_eq_none_iff] at hget
    have hmoments := moments_passes htracked hpasses hticks id
    rwa [hget] at hmoments
  have hpasses := Bool.eq_false_iff.mpr hpasses
  refine moments_eq_nil hpasses ?_
  cases hready : e.ready? with
  | none => exact announces_eq_false hready id
  | some asked =>
    obtain ⟨conn, request⟩ := asked
    rcases ready_cases hencoder hready with ⟨hannounces, -⟩ |
      ⟨slot, room, outcome, hannounces, hslot, -, -, -, hrooms⟩
    · exact hannounces id
    · refine (hannounces id).trans (decide_eq_false ?_)
      rintro rfl
      -- the room that starts is tracked afterwards
      rw [hrooms, Table.get?_update, if_pos rfl, hslot] at hget
      cases hget

end Moves

/-! ## What holds of every slot -/

/-- The moments of a room whose next frame is the given one. -/
def soFar : Option Nat → List Moment
  | none => []
  | some n => .start :: (List.range n).map fun k => .frame (UInt32.ofNat k)

/-- The room, the ticker and its mark belong together. The room is well formed, has its number, and
has the places and the frames of a battle; somebody is missing while it waits, and no more frames
are counted than there are. The ticker has been started exactly if the battle has, and one that runs
has been started. -/
structure InOrder (c : BattleConfig) (id : RoomId) (slot : Room.Slot) : Prop where
  wellFormed : slot.room.WellFormed
  tracked : slot.room.id = id
  places : slot.room.config.maxPlayers = c.maxPlayers
  frames : slot.room.config.maxFrames = c.maxFrames
  incomplete : slot.room.phase = .waitingReady →
    slot.room.ready.length < slot.room.config.maxPlayers
  counted : slot.room.nextFrame.getD 0 ≤ slot.room.config.maxFrames
  started : slot.tickerStarted = slot.room.nextFrame.isSome
  ticker : slot.ticker.isSome = true → slot.tickerStarted = true

section InOrder

variable {s : Server} {e : Event} {c : BattleConfig} {id : RoomId} {slot slot' : Room.Slot}
  {ms : List Moment}

theorem inOrder_new (battle : BattleConfig) (id : RoomId) (stopped : Bool) :
    InOrder battle.validated id (.ofRoom (Room.new id battle.validated) stopped) where
  wellFormed := Room.wellFormed_new id _
  tracked := rfl
  places := by
    show min (max (min (max battle.maxPlayers 1) BattleConfig.maxSeats) 1) BattleConfig.maxSeats =
      min (max battle.maxPlayers 1) BattleConfig.maxSeats
    simp only [BattleConfig.maxSeats]
    omega
  frames := by
    show max (max battle.maxFrames 1) 1 = max battle.maxFrames 1
    omega
  incomplete := nofun
  counted := Nat.zero_le _
  started := rfl
  ticker := nofun

/-- A slot whose room has the number and the settings of one in order. -/
theorem InOrder.of_same (h : InOrder c id slot) (hid : slot'.room.id = slot.room.id)
    (hconfig : slot'.room.config = slot.room.config) (hwell : slot'.room.WellFormed)
    (hincomplete : slot'.room.phase = .waitingReady →
      slot'.room.ready.length < slot'.room.config.maxPlayers)
    (hcounted : slot'.room.nextFrame.getD 0 ≤ slot'.room.config.maxFrames)
    (hstarted : slot'.tickerStarted = slot'.room.nextFrame.isSome)
    (hticker : slot'.ticker.isSome = true → slot'.tickerStarted = true) : InOrder c id slot' where
  wellFormed := hwell
  tracked := hid.trans h.tracked
  places := (congrArg BattleConfig.maxPlayers hconfig).trans h.places
  frames := (congrArg BattleConfig.maxFrames hconfig).trans h.frames
  incomplete := hincomplete
  counted := hcounted
  started := hstarted
  ticker := hticker

/-- An operation on the room that leaves the next frame alone. -/
theorem InOrder.quiet (h : InOrder c id slot) (hquiet : Quiet slot slot') :
    InOrder c id slot' := by
  have hticker : slot'.ticker.isSome = true → slot'.tickerStarted = true := by
    intro hsome
    rw [hquiet.started]
    refine h.ticker ?_
    rcases hquiet.ticker with hsame | hnone
    · rwa [hsame] at hsome
    · rw [hnone] at hsome
      cases hsome
  have hstarted : slot'.tickerStarted = slot'.room.nextFrame.isSome := by
    rw [hquiet.started, hquiet.next]
    exact h.started
  rcases hquiet.room with hroom | ⟨op, hroom⟩
  · refine h.of_same ?_ ?_ ?_ ?_ ?_ hstarted hticker <;> rw [hroom]
    · exact h.wellFormed
    · exact h.incomplete
    · exact h.counted
  · have hchange := Room.change_apply h.wellFormed op
    have hwell := Room.wellFormed_apply h.wellFormed op
    have hcounted := hquiet.next
    rw [hroom] at hcounted
    refine h.of_same ?_ ?_ ?_ ?_ ?_ hstarted hticker <;> rw [hroom]
    · exact hchange.id_eq
    · exact hchange.config_eq
    · exact hwell
    · exact hchange.incomplete h.wellFormed hwell h.incomplete
    · rw [hcounted, hchange.config_eq]
      exact h.counted

/-- The room that a battle starts in, and the one it starts from. -/
theorem start_of_becomeReady {room room' : Room} {player : PlayerId} {conn : ConnId} {now : Nat}
    {outcome : Room.Readied} (hwell : room.WellFormed)
    (hbecome : room.becomeReady player conn now = .ok (outcome, room'))
    (hstart : outcome.start = some ⟨.ok, 0, 0⟩) :
    room.phase = .waitingReady ∧ room.nextFrame = none ∧ room'.phase = .running ∧
      room'.nextFrame = some 0 ∧ room'.members = room.members ∧
      room'.ready.length = room.config.maxPlayers := by
  obtain ⟨-, -, -, -, ⟨hcomplete, rfl, -⟩ | ⟨-, -, hnone⟩⟩ := Room.becomeReady_eq_ok hbecome
  · obtain ⟨hphase, hlength⟩ := hcomplete
    have hwaits : room.phase = .waitingReady := hphase
    exact ⟨hwaits, hwell.not_started (Or.inr hwaits), rfl, rfl, rfl, hlength⟩
  · rw [hstart] at hnone
    cases hnone

theorem InOrder.not_started (h : InOrder c id slot) (hnext : slot.room.nextFrame = none) :
    slot.tickerStarted = false := by
  rw [h.started, hnext]
  rfl

theorem InOrder.announced (h : InOrder c id slot) {player : PlayerId} {conn : ConnId}
    {room : Room} {outcome : Room.Readied}
    (hbecome : slot.room.becomeReady player conn s.now = .ok (outcome, room))
    (hstart : outcome.start = some ⟨.ok, 0, 0⟩) (draw : Nat) :
    InOrder c id ({ slot with room }.spawnTicker s.now draw).2 := by
  have happly : slot.room.apply (.ready player conn s.now) = (.readied outcome, room) := by
    rw [Room.apply, hbecome]
  have hchange := Room.change_of_apply h.wellFormed happly
  have hwell := Room.wellFormed_apply h.wellFormed (.ready player conn s.now)
  rw [happly] at hwell
  obtain ⟨-, hnext, hrunning, hfirst, -⟩ := start_of_becomeReady h.wellFormed hbecome hstart
  have hfalse : ({ slot with room } : Room.Slot).tickerStarted = false := h.not_started hnext
  rw [slot_spawnTicker_eq hfalse]
  refine h.of_same hchange.id_eq hchange.config_eq hwell ?_ ?_ ?_ fun _ => rfl
  · intro hwaits
    cases hwaits.symm.trans hrunning
  · show room.nextFrame.getD 0 ≤ room.config.maxFrames
    rw [hfirst]
    exact Nat.zero_le _
  · show true = room.nextFrame.isSome
    rw [hfirst]
    rfl

theorem InOrder.ticked (h : InOrder c id slot) (encoder : Encoder) (start target : Nat) :
    InOrder c id (slot.runTicker encoder start target).2 := by
  obtain ⟨k, hroom, -⟩ := Room.Slot.runTicker_spec encoder slot start target
  obtain ⟨n, hcounts⟩ := Room.Slot.runTicker_counts h.wellFormed encoder start target
  obtain ⟨hmark, hsome⟩ := Room.Slot.runTicker_ticker slot encoder start target
  have hconfig : (slot.runTicker encoder start target).2.room.config = slot.room.config := by
    rw [hroom]
    exact Room.run_config h.wellFormed _
  refine h.of_same ?_ hconfig ?_ ?_ (hcounts.le_maxFrames hconfig h.counted) ?_ ?_
  · rw [hroom]
    exact Room.run_id h.wellFormed _
  · rw [hroom]
    exact Room.wellFormed_run h.wellFormed _
  · rw [hroom]
    exact Room.incomplete_run h.wellFormed h.incomplete _
  · rw [hmark, hcounts.next, Option.isSome_map]
    exact h.started
  · intro hrunning
    rw [hmark]
    exact h.ticker (hsome hrunning)

/-- What a ticker sends comes behind what was seen so far. -/
theorem soFar_append {r r' : Room} {firings : List Room.Firing} {n : Nat}
    (h : Room.Slot.Counts r r' firings n) :
    soFar r.nextFrame ++ firings.map (fun f => .frame f.frame) = soFar r'.nextFrame := by
  have hmap : firings.map (fun f => Moment.frame f.frame) =
      (List.range' (r.nextFrame.getD 0) n).map fun k => .frame (UInt32.ofNat k) := by
    have hframes := congrArg (List.map Moment.frame) h.frames
    rwa [List.map_map, List.map_map] at hframes
  rw [hmap, h.next]
  cases hnext : r.nextFrame with
  | none =>
    -- before the start there are no frames
    have hn : n = 0 := by
      by_contra hn
      exact (h.bounded hn).1 hnext
    rw [hn]
    rfl
  | some k =>
    show .start :: (_ ++ _) = Moment.start :: _
    rw [← List.map_append]
    congr 2
    rw [Option.getD_some, List.range'_eq_map_range]
    exact List.range_add.symm

/-- **Every move** keeps a slot in order, and what is seen of the room stays what its next frame
says. -/
theorem InOrder.moves (h : InOrder c id slot) (hmoves : Moves s e slot slot' ms) :
    InOrder c id slot' ∧ soFar slot.room.nextFrame ++ ms = soFar slot'.room.nextFrame := by
  cases hmoves with
  | quiet _ hquiet =>
    refine ⟨h.quiet hquiet, ?_⟩
    rw [hquiet.next, List.append_nil]
  | announced player conn room outcome draw hbecome hstart =>
    obtain ⟨-, hnext, -, hfirst, -⟩ := start_of_becomeReady h.wellFormed hbecome hstart
    refine ⟨h.announced hbecome hstart draw, ?_⟩
    rw [slot_spawnTicker_room, hnext]
    show [.start] = soFar room.nextFrame
    rw [hfirst]
    rfl
  | ticked start target hpasses =>
    refine ⟨h.ticked s.encoder start target, ?_⟩
    obtain ⟨n, hcounts⟩ := Room.Slot.runTicker_counts h.wellFormed s.encoder start target
    exact soFar_append hcounts

end InOrder

/-! ## What holds after a run -/

/-- The rooms are in order after a run, with the encoder and the settings of the setup, and what was
to be seen of each can be read off its next frame, as long as it is tracked. -/
structure Recounts (setup : Setup) (s : Server) (seen : RoomId → List Moment) : Prop where
  encoder : s.encoder = setup.encoder
  config : s.registry.config = setup.battle.validated
  slots : ∀ id slot, s.registry.rooms.get? id = some slot → InOrder setup.battle.validated id slot
  timeline : ∀ id, ∃ next, seen id = soFar next ∧ next.getD 0 ≤ setup.battle.validated.maxFrames ∧
    ∀ slot, s.registry.rooms.get? id = some slot → slot.room.nextFrame = next

section Recounts

variable {setup : Setup} {s : Server} {e : Event} {seen : RoomId → List Moment}

theorem Recounts.tracked (h : Recounts setup s seen) : Tracked s.registry.rooms :=
  fun id slot hget => ⟨(h.slots id slot hget).wellFormed, (h.slots id slot hget).tracked⟩

/-- A room has places for the players that the registry makes rooms for. -/
theorem Recounts.places (h : Recounts setup s seen) {id : RoomId} {slot : Room.Slot}
    (hslot : s.registry.rooms.get? id = some slot) :
    slot.room.config.maxPlayers = s.registry.config.maxPlayers := by
  rw [(h.slots id slot hslot).places, h.config]

theorem recounts_new (setup : Setup) : Recounts setup (new setup) fun _ => [] where
  encoder := rfl
  config := rfl
  slots := by
    intro id slot hget
    cases hget
  timeline := by
    intro id
    refine ⟨none, rfl, Nat.zero_le _, ?_⟩
    intro slot hget
    cases hget

/-- **Every event** adds to what is seen of each room what the next frame of the room then says. -/
theorem recounts_step (hencoder : setup.encoder = .standard) (h : Recounts setup s seen)
    (e : Event) : Recounts setup (s.step e).2 fun id => s.extend e id (seen id) := by
  obtain ⟨hencoder', hconfig⟩ := settings_step s e
  have hstandard := h.encoder.trans hencoder
  refine ⟨hencoder'.trans h.encoder, hconfig.trans h.config, ?_, ?_⟩
  · intro id slot' hget
    cases hmakes : s.makes e id with
    | true =>
      cases (makes_step hmakes).1.symm.trans hget
      rw [h.config]
      exact inOrder_new setup.battle id _
    | false =>
      obtain ⟨slot, hslot, hmoves⟩ := moves_step hstandard h.tracked hmakes hget
      exact ((h.slots id slot hslot).moves hmoves).1
  · intro id
    obtain ⟨next, hseen, hbound, hnext⟩ := h.timeline id
    rw [extend]
    cases hmakes : s.makes e id with
    | true =>
      -- nothing is to be seen of a new room
      obtain ⟨hnew, hmoments⟩ := makes_step hmakes
      refine ⟨none, ?_, Nat.zero_le _, ?_⟩
      · rw [hmoments]
        rfl
      · intro slot hslot
        cases hnew.symm.trans hslot
        rfl
    | false =>
      rw [if_neg Bool.false_ne_true, hseen]
      cases hget : (s.step e).2.registry.rooms.get? id with
      | none =>
        -- nor of one that is not tracked
        rw [moments_of_untracked hstandard h.tracked e hget, List.append_nil]
        exact ⟨next, rfl, hbound, fun slot hslot => absurd hslot.symm (Option.some_ne_none slot)⟩
      | some slot' =>
        obtain ⟨slot, hslot, hmoves⟩ := moves_step hstandard h.tracked hmakes hget
        obtain ⟨horder, hsofar⟩ := (h.slots id slot hslot).moves hmoves
        rw [← hnext slot hslot, hsofar]
        refine ⟨slot'.room.nextFrame, rfl, horder.frames ▸ horder.counted, ?_⟩
        intro slot₁ hslot₁
        rw [Option.some.inj hslot₁]

/-- **After every run** the rooms are in order, and their next frames tell what was to be seen. -/
theorem recounts_run (setup : Setup) (hencoder : setup.encoder = .standard) (es : List Event) :
    Recounts setup (stateAfter setup es) fun id => timeline setup es id := by
  -- by the last event, as a timeline grows at its end
  induction es using List.reverseRecOn with
  | nil => exact recounts_new setup
  | append_singleton es e ih =>
    simp only [stateAfter_snoc, timeline_snoc]
    exact recounts_step hencoder ih e

end Recounts

/-! ## The protocol -/

/-- Nothing, or one announcement and then the frames from 0 on. -/
def Orderly (c : BattleConfig) (ms : List Moment) : Prop :=
  ms = [] ∨ ∃ frames : List UInt32, ms = .start :: frames.map .frame ∧
    frames.length ≤ c.maxFrames ∧ frames = (List.range frames.length).map UInt32.ofNat ∧
    (c.maxFrames ≤ UInt32.size → frames.map UInt32.toNat = List.range frames.length)

/-- The event is a `ready` after which the roster of a full room consists of its members, while
before it somebody was missing. -/
def Completes (s : Server) (e : Event) (id : RoomId) : Prop :=
  ∃ conn request slot slot', e.ready? = some (conn, request) ∧ request.room = id ∧
    s.registry.rooms.get? id = some slot ∧ (s.step e).2.registry.rooms.get? id = some slot' ∧
    slot.room.phase = .waitingReady ∧ slot.room.roster.length < s.registry.config.maxPlayers ∧
    slot'.room.roster.Perm slot'.room.members ∧
    slot'.room.members.length = s.registry.config.maxPlayers

/-- What an event has to do with the start of a battle, and with its frames. What arrives on the
battle channel has been sent.

The battle is announced by the `ready` that completes the roster, and by nothing else. That is
answered first, then the battle is announced, both to everybody who is ready, and then the ticker
runs, unless the room is stopped. Every announcement is of the room of a `ready`.

Every frame is sent by a tick, and a tick sends its frame to everybody who is ready. A ticker is
started with the announcement, when none has been, or it went on. -/
structure FollowsProtocol (s : Server) (e : Event) (id : RoomId) : Prop where
  arrives : (s.step e).1.battle = s.sink.accept (s.battleSent e)
  completes : s.announces e id = true ↔ Completes s e id
  announced : s.announces e id = true →
    ∃ slot', (s.step e).2.registry.rooms.get? id = some slot' ∧
      s.battleSent e = replies id slot'.room ++ announcements slot'.room ∧
      (slot'.ticker = none → slot'.stopped = true)
  attributed : ∀ d ∈ s.battleSent e, d.packet.command = BattleCommand.start.toByte →
    ∃ conn request, e.ready? = some (conn, request) ∧ s.announces e request.room = true
  framed : ∀ d ∈ s.battleSent e, d.packet.command = BattleCommand.frame.toByte →
    ∃ f ∈ (s.step e).1.ticks, d ∈ f.sent
  broadcast : ∀ f ∈ (s.step e).1.ticks, f.room = id →
    ∃ slot, s.registry.rooms.get? id = some slot ∧ ∃ b : FrameBroadcast, b.frame = f.frame ∧
      f.sent = Delivery.toEach slot.room.recipients BattleCommand.frame.toByte (encodeBody b)
  ticker : ∀ slot', (s.step e).2.registry.rooms.get? id = some slot' → slot'.ticker ≠ none →
    ∃ slot, s.registry.rooms.get? id = some slot ∧
      (s.announces e id = true ∧ slot.tickerStarted = false ∨
        slot.ticker ≠ none ∧ (e.passes = false → slot'.ticker = slot.ticker))

section Protocol

variable {setup : Setup} {s : Server} {e : Event} {seen : RoomId → List Moment} {id : RoomId}

theorem orderly_soFar {c : BattleConfig} {next : Option Nat} (h : next.getD 0 ≤ c.maxFrames) :
    Orderly c (soFar next) := by
  cases next with
  | none => exact Or.inl rfl
  | some n =>
    rw [Option.getD_some] at h
    refine Or.inr ⟨(List.range n).map UInt32.ofNat, ?_, ?_, ?_, ?_⟩
    · rw [soFar, List.map_map]
      rfl
    · rwa [List.length_map, List.length_range]
    · rw [List.length_map, List.length_range]
    · intro hsize
      rw [List.length_map, List.length_range, List.map_map]
      refine (List.map_congr_left fun k hk => ?_).trans (List.map_id _)
      have hlt : k < UInt32.size := Nat.lt_of_lt_of_le (List.mem_range.mp hk) (Nat.le_trans h hsize)
      exact UInt32.toNat_ofNat_of_lt' hlt

/-- What is sent answers a packet, or is sent by a tick. -/
theorem mem_battleSent {d : Delivery} (h : d ∈ s.battleSent e) :
    (∃ conn p, e = .battle conn p ∧ d ∈ (s.onBattle conn p).sent) ∨
      ∃ f ∈ (s.step e).1.ticks, d ∈ f.sent := by
  cases e with
  | battle conn p => exact Or.inl ⟨conn, p, rfl, h⟩
  | _ => exact Or.inr (List.mem_flatMap.mp h)

theorem Recounts.broadcast (h : Recounts setup s seen) (hencoder : setup.encoder = .standard)
    {f : Room.Firing} (hf : f ∈ (s.step e).1.ticks) :
    ∃ slot, s.registry.rooms.get? f.room = some slot ∧ ∃ b : FrameBroadcast, b.frame = f.frame ∧
      f.sent = Delivery.toEach slot.room.recipients BattleCommand.frame.toByte (encodeBody b) := by
  obtain ⟨start, target, hfired⟩ := exists_advance_of_mem_ticks hf
  obtain ⟨id, slot, hget, hmem⟩ := Registry.mem_advance.mp hfired
  obtain ⟨hwell, hid⟩ := h.tracked id slot hget
  obtain ⟨n, -, hall⟩ := Room.Slot.runTicker_spec s.encoder slot start target
  have hroom : f.room = id := (Registry.room_of_mem_runTicker hwell hmem).trans hid
  have hbroadcast := hall f hmem
  rw [h.encoder, hencoder] at hbroadcast
  rw [hroom]
  exact ⟨slot, hget, hbroadcast.broadcast hwell⟩

theorem Recounts.attributed (h : Recounts setup s seen) (hencoder : setup.encoder = .standard)
    {d : Delivery} (hd : d ∈ s.battleSent e)
    (hcommand : d.packet.command = BattleCommand.start.toByte) :
    ∃ conn request, e.ready? = some (conn, request) ∧ s.announces e request.room = true := by
  rcases mem_battleSent hd with ⟨conn, p, rfl, hsent⟩ | ⟨f, hf, hsent⟩
  · rcases command_of_mem_onBattle hsent with ⟨request, hready⟩ | ⟨hother, -⟩
    · refine ⟨conn, request, hready, ?_⟩
      rw [announces_eq_any hready, decide_eq_true rfl, Bool.true_and, List.any_eq_true]
      exact ⟨d, hd, decide_eq_true hcommand⟩
    · exact absurd hcommand hother
  · obtain ⟨slot, -, b, -, hframe⟩ := h.broadcast hencoder hf
    rw [hframe] at hsent
    rw [command_of_mem_toEach hsent] at hcommand
    exact absurd hcommand (by decide)

theorem Recounts.framed (h : Recounts setup s seen) (hencoder : setup.encoder = .standard)
    {d : Delivery} (hd : d ∈ s.battleSent e)
    (hcommand : d.packet.command = BattleCommand.frame.toByte) :
    ∃ f ∈ (s.step e).1.ticks, d ∈ f.sent := by
  -- the packets of a handled event, or the frames of a ticker
  rcases mem_battleSent hd with ⟨conn, p, rfl, hsent⟩ | hticks
  · rcases command_of_mem_onBattle hsent with ⟨request, hready⟩ | ⟨-, hother⟩
    · -- the answers to a `ready` are no frames
      have hends := ready_ends (h.encoder.trans hencoder) hready
      refine absurd hcommand ?_
      generalize s.battleSent (.battle conn p) = sent at hd hends
      generalize (s.step (.battle conn p)).2.registry.rooms = rooms at hends
      cases hends with
      | refused | waits =>
        rw [command_of_mem_toEach hd]
        decide
      | starts =>
        rcases List.mem_append.mp hd with hreply | hstart
        · rw [command_of_mem_toEach hreply]
          decide
        · rw [command_of_mem_toEach hstart]
          decide
    · exact absurd hcommand hother
  · exact hticks

/-- What is announced is the battle of the room that a `ready` completes. -/
theorem announces_eq_true (hencoder : s.encoder = .standard) (h : s.announces e id = true) :
    ∃ conn request slot room outcome, e.ready? = some (conn, request) ∧ request.room = id ∧
      s.registry.rooms.get? id = some slot ∧
      slot.room.becomeReady request.player conn s.now = .ok (outcome, room) ∧
      outcome.start = some ⟨.ok, 0, 0⟩ ∧ s.battleSent e = replies id room ++ announcements room ∧
      (s.step e).2.registry.rooms.get? id =
        some ({ slot with room }.spawnTicker s.now (s.chance.draw id)).2 := by
  cases hready : e.ready? with
  | none =>
    rw [announces_eq_false hready] at h
    cases h
  | some asked =>
    obtain ⟨conn, request⟩ := asked
    rcases ready_cases hencoder hready with ⟨hannounces, -⟩ |
      ⟨slot, room, outcome, hannounces, hslot, hbecome, hstart, hsent, hrooms⟩
    · rw [hannounces id] at h
      cases h
    · rw [hannounces id, decide_eq_true_eq] at h
      subst h
      refine ⟨conn, request, slot, room, outcome, rfl, rfl, hslot, hbecome, hstart, hsent, ?_⟩
      rw [hrooms, Table.get?_update, if_pos rfl, hslot]
      rfl

/-- A roster with as many players as there are members consists of the members. -/
theorem roster_perm_members {room : Room} (hwell : room.WellFormed)
    (hlength : room.roster.length = room.members.length) : room.roster.Perm room.members :=
  (hwell.roster_nodup.subperm hwell.roster_subset).perm_of_length_le (Nat.le_of_eq hlength.symm)

/-- **The announcement is brought about** by the `ready` that completes the roster. -/
theorem Recounts.completes_of_announces (h : Recounts setup s seen)
    (hencoder : setup.encoder = .standard) (hannounces : s.announces e id = true) :
    Completes s e id := by
  obtain ⟨conn, request, slot, room, outcome, hready, hroom, hslot, hbecome, hstart, -, hget⟩ :=
    announces_eq_true (h.encoder.trans hencoder) hannounces
  have horder := h.slots id slot hslot
  have hplaces := h.places hslot
  obtain ⟨hwaits, -, -, -, hmembers, hlength⟩ :=
    start_of_becomeReady horder.wellFormed hbecome hstart
  have hfull : slot.room.members.length = slot.room.config.maxPlayers :=
    horder.wellFormed.members_full (Or.inl hwaits)
  have hwell := (horder.announced hbecome hstart (s.chance.draw id)).wellFormed
  rw [slot_spawnTicker_room] at hwell
  -- somebody was missing before, and afterwards the roster has as many players as the room
  refine ⟨conn, request, slot, _, hready, hroom, hslot, hget, hwaits, ?_, ?_, ?_⟩
  · rw [Room.roster, List.length_map, ← hplaces]
    exact horder.incomplete hwaits
  · rw [slot_spawnTicker_room]
    refine roster_perm_members hwell ?_
    rw [Room.roster, List.length_map, hlength, hmembers, hfull]
  · rw [slot_spawnTicker_room, hmembers, hfull, hplaces]

/-- **And every such `ready`** brings it about. -/
theorem Recounts.announces_of_completes (h : Recounts setup s seen)
    (hencoder : setup.encoder = .standard) (hcompletes : Completes s e id) :
    s.announces e id = true := by
  obtain ⟨conn, request, slot, slot', hready, rfl, hslot, hslot', hwaits, hmissing, hroster,
    hfull⟩ := hcompletes
  have hlength : slot'.room.roster.length = s.registry.config.maxPlayers :=
    hroster.length_eq.trans hfull
  rcases ready_cases (h.encoder.trans hencoder) hready with ⟨-, hrooms⟩ | ⟨-, -, -, hannounces, -⟩
  · rcases hrooms with hrooms | ⟨slot₁, room, outcome, hslot₁, hbecome, hnone, hrooms⟩
    · -- the roster is the one before, in which somebody was missing
      rw [hrooms] at hslot'
      cases hslot.symm.trans hslot'
      exact absurd hlength (Nat.ne_of_lt hmissing)
    · -- the room goes on waiting, so it is not complete
      cases hslot.symm.trans hslot₁
      rw [hrooms, Table.get?_update, if_pos rfl, hslot] at hslot'
      cases hslot'
      obtain ⟨-, -, -, -, ⟨-, -, hsome⟩ | ⟨hnot, rfl, -⟩⟩ := Room.becomeReady_eq_ok hbecome
      · rw [hsome] at hnone
        cases hnone
      · rw [Room.roster, List.length_map] at hlength
        exact absurd ⟨hwaits, hlength.trans (h.places hslot).symm⟩ hnot
  · rw [hannounces, decide_eq_true rfl]

/-- **A ticker** is started by the announcement, or went on. -/
theorem Recounts.ticker (h : Recounts setup s seen) (hencoder : setup.encoder = .standard)
    {slot' : Room.Slot} (hget : (s.step e).2.registry.rooms.get? id = some slot')
    (hticker : slot'.ticker ≠ none) :
    ∃ slot, s.registry.rooms.get? id = some slot ∧
      (s.announces e id = true ∧ slot.tickerStarted = false ∨
        slot.ticker ≠ none ∧ (e.passes = false → slot'.ticker = slot.ticker)) := by
  cases hmakes : s.makes e id with
  | true =>
    cases (makes_step hmakes).1.symm.trans hget
    exact absurd rfl hticker
  | false =>
    obtain ⟨slot, hslot, hmoves⟩ :=
      moves_step (h.encoder.trans hencoder) h.tracked hmakes hget
    have horder := h.slots id slot hslot
    refine ⟨slot, hslot, ?_⟩
    generalize hmoments : s.moments e id = ms at hmoves
    cases hmoves with
    | quiet _ hquiet =>
      rcases hquiet.ticker with hsame | hnone
      · exact Or.inr ⟨hsame ▸ hticker, fun _ => hsame⟩
      · exact absurd hnone hticker
    | announced player conn room outcome draw hbecome hstart =>
      obtain ⟨-, hnext, -⟩ := start_of_becomeReady horder.wellFormed hbecome hstart
      refine Or.inl ⟨?_, ?_⟩
      · -- without an announcement there would be nothing but frames in the moments
        by_contra hannounces
        have hmem : Moment.start ∈ s.moments e id := hmoments ▸ List.mem_singleton_self _
        rw [moments, if_neg hannounces] at hmem
        obtain ⟨f, -, hframe⟩ := List.mem_map.mp hmem
        cases hframe
      · exact horder.not_started hnext
    | ticked start target hpasses =>
      obtain ⟨-, hruns⟩ := Room.Slot.runTicker_ticker slot s.encoder start target
      refine Or.inr ⟨?_, fun hstays => ?_⟩
      · exact Option.isSome_iff_ne_none.mp (hruns (Option.isSome_iff_ne_none.mpr hticker))
      · rw [hpasses] at hstays
        cases hstays

/-- **What the announcement comes with.** -/
theorem Recounts.announced (h : Recounts setup s seen) (hencoder : setup.encoder = .standard)
    (hannounces : s.announces e id = true) :
    ∃ slot', (s.step e).2.registry.rooms.get? id = some slot' ∧
      s.battleSent e = replies id slot'.room ++ announcements slot'.room ∧
      (slot'.ticker = none → slot'.stopped = true) := by
  obtain ⟨conn, request, slot, room, outcome, -, -, hslot, hbecome, hstart, hsent, hget⟩ :=
    announces_eq_true (h.encoder.trans hencoder) hannounces
  have horder := h.slots id slot hslot
  obtain ⟨-, hnext, -⟩ := start_of_becomeReady horder.wellFormed hbecome hstart
  refine ⟨_, hget, ?_, ?_⟩
  · rw [slot_spawnTicker_room]
    exact hsent
  · have hfalse : ({ slot with room } : Room.Slot).tickerStarted = false :=
      horder.not_started hnext
    rw [slot_spawnTicker_eq hfalse]
    intro hticker
    by_contra hruns
    rw [if_neg hruns] at hticker
    cases hticker

/-- **Every event** follows the protocol in a state with its rooms in order. -/
theorem Recounts.follows (h : Recounts setup s seen) (hencoder : setup.encoder = .standard)
    (e : Event) (id : RoomId) : FollowsProtocol s e id where
  arrives := step_battle s e
  completes := ⟨h.completes_of_announces hencoder, h.announces_of_completes hencoder⟩
  announced := h.announced hencoder
  attributed := fun d hd hcommand => h.attributed hencoder hd hcommand
  framed := fun d hd hcommand => h.framed hencoder hd hcommand
  broadcast := by
    rintro f hf rfl
    exact h.broadcast hencoder hf
  ticker := fun slot' hget hticker => h.ticker hencoder hget hticker

/-- **How a battle starts.** In every run of a server, what is to be seen of a room is nothing, or
one announcement of its battle and after it the frames from 0 on, each of them once and none left
out; and every event of the run follows the protocol: the announcement is made when the last player
of a full room becomes ready, after the answer to that, to everybody who is ready, and this starts
the ticker of the room, which nothing else does. -/
theorem start_protocol (setup : Setup) (hencoder : setup.encoder = .standard) (es : List Event)
    (id : RoomId) :
    Orderly setup.battle.validated (timeline setup es id) ∧
      ∀ before e, before ++ [e] <+: es → FollowsProtocol (stateAfter setup before) e id := by
  constructor
  · obtain ⟨next, hseen, hbound, -⟩ := (recounts_run setup hencoder es).timeline id
    rw [hseen]
    exact orderly_soFar hbound
  · intro before e _
    exact (recounts_run setup hencoder before).follows hencoder e id

end Protocol

/-- Player 102, who has reconnected on 13, is ready once more, and time passes. -/
def pairAgain : List Event :=
  pairRun 13 ++ [.ofBattle 13 .ready (ReadyRequest.mk ⟨102⟩ ⟨10001⟩), .sleep 200]

/-- The second of two players starts the battle, and does not start it again. -/
theorem start_protocol_pair :
    pairSetup.encoder = .standard ∧
      Orderly pairSetup.battle.validated (timeline pairSetup pairAgain ⟨10001⟩) ∧
      timeline pairSetup pairAgain ⟨10001⟩ =
        [.start, .frame 0, .frame 1, .frame 2, .frame 3, .frame 4, .frame 5] ∧
      Completes (stateAfter pairSetup (pairAgain.take 8))
        (.ofBattle 12 .ready (ReadyRequest.mk ⟨102⟩ ⟨10001⟩)) ⟨10001⟩ := by
  have hencoder : pairSetup.encoder = .standard := rfl
  obtain ⟨horderly, hfollows⟩ := start_protocol pairSetup hencoder pairAgain ⟨10001⟩
  have hstart : (stateAfter pairSetup (pairAgain.take 8)).announces
      (.ofBattle 12 .ready (ReadyRequest.mk ⟨102⟩ ⟨10001⟩)) ⟨10001⟩ = true := by
    decide +kernel
  have hready := hfollows (pairAgain.take 8)
    (.ofBattle 12 .ready (ReadyRequest.mk ⟨102⟩ ⟨10001⟩)) ⟨pairAgain.drop 9, rfl⟩
  refine ⟨hencoder, horderly, ?_, hready.completes.mp hstart⟩
  decide +kernel

end FrameSync.Server
