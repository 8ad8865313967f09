import FrameSync.Proofs.Server.Agreement

/-!
# Requests to different rooms commute

A battle packet other than a `connect` is for one room at most: a `ready` for the room that it
names, an input or an integrity value for the room of its sender (`targetRoom`). Handling it looks
at the directory, at the clock and at that room, and puts new slots there. `Alike` says so of one
packet in two states: if the states agree on what is looked at (`SameFor`), the error, the sends and
the slots are the same.

Two packets for different rooms therefore do not see each other, and they write to different places.
This goes for what is left to chance as well: the number that a ticker draws when it starts belongs
to its room, whatever else starts before it. What remains of their order is the queue of the
tickers: two battles that start at one instant stand in it in the order of their starts
(`SameButOrder`).
-/

set_option autoImplicit false

namespace FrameSync.Server

open Wire

/-! ## The room of a packet -/

/-- The room that a battle packet is for: the one that a `ready` names, or the one that the sender
of an input or of an integrity value has joined. -/
def targetRoom (s : Server) (conn : ConnId) (p : Packet) : Option RoomId :=
  match BattleCommand.ofByte p.command with
  | .ok .ready =>
    match readBody ReadyRequest p.payload with
    | .error _ => none
    | .ok request => some request.room
  | .ok .frame | .ok .check => (s.directory.playerByBattle conn).bind s.directory.roomOf
  | _ => none

/-- The server with a new slot for a tracked room. -/
def withSlot (s : Server) (id : Option RoomId) (slot : Room.Slot) : Server :=
  match id with
  | none => s
  | some id => { s with registry := s.registry.put id slot }

/-- The server after the room has been given new slots, one after the other. -/
def amend (s : Server) (id : Option RoomId) (slots : List Room.Slot) : Server :=
  slots.foldl (fun s slot => s.withSlot id slot) s

/-- Two states with the same for a packet to look at: the players and their connections, how bodies
are written, what the tickers have to draw, the time, and the slot of the room. -/
structure SameFor (id : Option RoomId) (s s' : Server) : Prop where
  directory : s'.directory = s.directory
  encoder : s'.encoder = s.encoder
  chance : s'.chance = s.chance
  now : s'.now = s.now
  slot : ∀ room ∈ id, s'.registry.rooms.get? room = s.registry.rooms.get? room

/-- Two handlings that come to the same, each in a state of its own. -/
inductive Alike (id : Option RoomId) (s s' : Server) : Handled → Handled → Prop where
  | intro (error : Option WireError) (sent : List Delivery) (slots : List Room.Slot) :
    Alike id s s' ⟨error, sent, s.amend id slots⟩ ⟨error, sent, s'.amend id slots⟩

section Alike

variable {id : Option RoomId} {s s' : Server}

theorem amend_append (s : Server) (slots slots' : List Room.Slot) :
    s.amend id (slots ++ slots') = (s.amend id slots).amend id slots' :=
  List.foldl_append

namespace SameFor

theorem refl (id : Option RoomId) (s : Server) : SameFor id s s := ⟨rfl, rfl, rfl, rfl, fun _ _ => rfl⟩

theorem get (h : SameFor id s s') {room : RoomId} (hroom : id = some room) :
    s'.registry.get room = s.registry.get room := by
  rw [Registry.get, Registry.get, h.slot room hroom]

/-- A new slot of the room itself is the same in both. -/
theorem withSlot (h : SameFor id s s') (slot : Room.Slot) :
    SameFor id (s.withSlot id slot) (s'.withSlot id slot) := by
  cases id with
  | none => exact h
  | some room =>
    refine ⟨h.directory, h.encoder, h.chance, h.now, fun room' hroom' => ?_⟩
    show (s'.registry.rooms.update room _).get? room' = (s.registry.rooms.update room _).get? room'
    rw [Table.get?_update, Table.get?_update, h.slot room' hroom']

theorem amend (h : SameFor id s s') (slots : List Room.Slot) :
    SameFor id (s.amend id slots) (s'.amend id slots) := by
  induction slots generalizing s s' with
  | nil => exact h
  | cons slot slots ih => exact ih (h.withSlot slot)

/-- A new slot of another room is not seen. -/
theorem of_withSlot {other : Option RoomId} (h : ∀ room, id = some room → other ≠ some room)
    (s : Server) (slot : Room.Slot) : SameFor id s (s.withSlot other slot) := by
  cases other with
  | none => exact refl id s
  | some room =>
    refine ⟨rfl, rfl, rfl, rfl, fun room' hroom' => ?_⟩
    have hne : room' ≠ room := fun heq => h room' hroom' (congrArg some heq.symm)
    exact (Table.get?_update_ite _ _ _ _).trans (if_neg hne)

theorem trans {s'' : Server} (h : SameFor id s s') (h' : SameFor id s' s'') : SameFor id s s'' :=
  ⟨h'.directory.trans h.directory, h'.encoder.trans h.encoder, h'.chance.trans h.chance,
    h'.now.trans h.now, fun room hroom => (h'.slot room hroom).trans (h.slot room hroom)⟩

theorem of_amend {other : Option RoomId} (h : ∀ room, id = some room → other ≠ some room)
    (s : Server) (slots : List Room.Slot) : SameFor id s (s.amend other slots) := by
  induction slots generalizing s with
  | nil => exact refl id s
  | cons slot slots ih => exact (of_withSlot h s slot).trans (ih (s.withSlot other slot))

end SameFor

namespace Alike

/-- Nothing is changed. -/
theorem unchanged (id : Option RoomId) (s s' : Server) (error : Option WireError)
    (sent : List Delivery) : Alike id s s' ⟨error, sent, s⟩ ⟨error, sent, s'⟩ :=
  .intro error sent []

theorem sendAll {α : Type} [Body α] (h : SameFor id s s') (conns : List ConnId) (command : UInt8)
    (body : α) : Alike id s s' (s.sendAll conns command body) (s'.sendAll conns command body) := by
  unfold Server.sendAll
  rw [h.encoder]
  cases s.encoder.encode body with
  | error e => exact unchanged id s s' (some e) []
  | ok payload => exact unchanged id s s' none (Delivery.toEach conns command payload)

/-- What happens after the room has been given a slot. -/
theorem after {slot : Room.Slot} {h h' : Handled}
    (hafter : Alike id (s.withSlot id slot) (s'.withSlot id slot) h h') : Alike id s s' h h' := by
  obtain ⟨error, sent, slots⟩ := hafter
  exact .intro error sent (slot :: slots)

/-- What is sent first and what follows it. -/
theorem andThen (hsame : SameFor id s s') {h h' : Handled} (hfirst : Alike id s s' h h')
    {next next' : Server → Handled}
    (hnext : ∀ t t', SameFor id t t' → Alike id t t' (next t) (next' t')) :
    Alike id s s' (h.andThen next) (h'.andThen next') := by
  obtain ⟨error, sent, slots⟩ := hfirst
  cases error with
  | some e => exact .intro (some e) sent slots
  | none =>
    have hthen := hnext _ _ (hsame.amend slots)
    simp only [Handled.andThen]
    generalize next (s.amend id slots) = a at hthen ⊢
    generalize next' (s'.amend id slots) = a' at hthen ⊢
    obtain ⟨error, sent', slots'⟩ := hthen
    rw [← amend_append, ← amend_append]
    exact .intro error (sent ++ sent') (slots ++ slots')

/-- What two handlings that come to the same have in common. -/
theorem amended {h h' : Handled} (halike : Alike id s s' h h') :
    h'.error = h.error ∧ h'.sent = h.sent ∧
      ∃ slots, h.server = s.amend id slots ∧ h'.server = s'.amend id slots := by
  obtain ⟨error, sent, slots⟩ := halike
  exact ⟨rfl, rfl, slots, rfl, rfl⟩

end Alike

/-! ## Every handler looks at one room -/

variable {conn : ConnId} {p : Packet}

theorem SameFor.resolve {s s' : Server}
    (h : SameFor ((s.directory.playerByBattle conn).bind s.directory.roomOf) s s') :
    s'.resolve conn = s.resolve conn := by
  unfold Server.resolve
  rw [h.directory]
  cases hplayer : s.directory.playerByBattle conn with
  | none => rfl
  | some player =>
    cases hroom : s.directory.roomOf player with
    | none => simp only [hroom]
    | some room =>
      simp only [hroom]
      rw [h.get (by rw [hplayer, Option.bind_some, hroom])]

/-- The room of a connection that is resolved is the one that its player has joined. -/
theorem target_of_resolve {player : PlayerId} {room : RoomId} {slot : Room.Slot}
    (h : s.resolve conn = some (player, room, slot)) :
    (s.directory.playerByBattle conn).bind s.directory.roomOf = some room := by
  obtain ⟨hplayer, hroom, -⟩ := resolve_eq_some s conn h
  rw [hplayer, Option.bind_some, hroom]

theorem alike_frame {payload : Bytes}
    (h : SameFor ((s.directory.playerByBattle conn).bind s.directory.roomOf) s s') :
    Alike ((s.directory.playerByBattle conn).bind s.directory.roomOf) s s' (s.frame conn payload)
      (s'.frame conn payload) := by
  unfold frame
  cases readBody FrameInput payload with
  | error e => exact .unchanged _ s s' (some e) []
  | ok input =>
    simp only
    rw [h.resolve]
    cases hresolve : s.resolve conn with
    | none => exact .unchanged _ s s' none []
    | some resolved =>
      obtain ⟨player, room, slot⟩ := resolved
      rw [target_of_resolve hresolve]
      simp only
      cases slot.room.recordInput player input with
      | error e => exact .unchanged _ s s' none []
      | ok room' => exact .intro none [] [{ slot with room := room' }]

theorem alike_check {payload : Bytes}
    (h : SameFor ((s.directory.playerByBattle conn).bind s.directory.roomOf) s s') :
    Alike ((s.directory.playerByBattle conn).bind s.directory.roomOf) s s' (s.check conn payload)
      (s'.check conn payload) := by
  unfold check
  cases readBody CheckRequest payload with
  | error e => exact .unchanged _ s s' (some e) []
  | ok request =>
    simp only
    rw [h.resolve]
    cases hresolve : s.resolve conn with
    | none => exact .sendAll h _ _ _
    | some resolved =>
      obtain ⟨player, room, slot⟩ := resolved
      rw [target_of_resolve hresolve] at h ⊢
      simp only
      cases slot.room.submitCheck player request with
      | error e => exact .sendAll h _ _ _
      | ok submitted =>
        obtain ⟨verdict, room'⟩ := submitted
        cases verdict with
        | none => exact .intro none [] [{ slot with room := room' }]
        | some verdict =>
          have hconns : s'.directory.battleConn = s.directory.battleConn := by
            rw [h.directory]
          simp only [hconns]
          exact .after (.sendAll (h.withSlot { slot with room := room' }) _ _ _)

/-- The ticker is started in both states or in neither. -/
theorem alike_spawnTicker {room : RoomId} (h : SameFor (some room) s s') :
    Alike (some room) s s' (s.spawnTicker room).silent (s'.spawnTicker room).silent := by
  unfold spawnTicker
  rw [h.get rfl]
  cases s.registry.get room with
  | error e => exact .unchanged _ s s' none []
  | ok slot =>
    have hslot : slot.spawnTicker s'.now (s'.chance.draw room) =
        slot.spawnTicker s.now (s.chance.draw room) := by
      rw [h.now, h.chance]
    simp only [hslot]
    exact .intro none [] [(slot.spawnTicker s.now (s.chance.draw room)).2]

theorem alike_ready {request : ReadyRequest} {payload : Bytes}
    (hrequest : readBody ReadyRequest payload = .ok request)
    (h : SameFor (some request.room) s s') :
    Alike (some request.room) s s' (s.ready conn payload) (s'.ready conn payload) := by
  have hplayer : s'.directory.playerByBattle conn = s.directory.playerByBattle conn := by
    rw [h.directory]
  unfold ready refuseReady
  rw [hrequest]
  simp only
  rw [hplayer, h.get rfl]
  by_cases hbound : s.directory.playerByBattle conn ≠ some request.player
  · rw [if_pos hbound, if_pos hbound]
    exact .sendAll h _ _ _
  · rw [if_neg hbound, if_neg hbound]
    cases s.registry.get request.room with
    | error e => exact .sendAll h _ _ _
    | ok slot =>
      have hslot : slot.ready request.player conn s'.now = slot.ready request.player conn s.now := by
        rw [h.now]
      simp only [hslot]
      cases slot.ready request.player conn s.now with
      | error e => exact .sendAll h _ _ _
      | ok readied =>
        obtain ⟨outcome, slot'⟩ := readied
        simp only
        -- the room has its new slot when the answer is sent, and again when the ticker is started
        have hput := h.withSlot slot'
        refine .after (.andThen hput (.sendAll hput _ _ _) fun t t' ht => ?_)
        cases outcome.start with
        | none => exact .unchanged _ t t' none []
        | some announcement =>
          exact .andThen ht (.sendAll ht _ _ _) fun u u' hu => alike_spawnTicker hu

/-- **A battle packet other than a `connect`** comes to the same in all states that agree on what it
looks at. -/
theorem alike_onBattle (hp : BattleCommand.ofByte p.command ≠ .ok .connect)
    (h : SameFor (s.targetRoom conn p) s s') :
    Alike (s.targetRoom conn p) s s' (s.onBattle conn p) (s'.onBattle conn p) := by
  unfold onBattle
  unfold targetRoom at h ⊢
  cases hcommand : BattleCommand.ofByte p.command with
  | error e => exact .unchanged _ s s' (some e) []
  | ok command =>
    rw [hcommand] at h hp
    cases command with
    | connect => exact absurd rfl hp
    | ready =>
      simp only at h ⊢
      cases hrequest : readBody ReadyRequest p.payload with
      | error e =>
        simp only [ready, hrequest]
        exact .unchanged _ s s' (some e) []
      | ok request =>
        rw [hrequest] at h
        exact alike_ready hrequest h
    | heartbeat =>
      simp only [heartbeat] at h ⊢
      cases readBody HeartbeatRequest p.payload with
      | error e => exact .unchanged _ s s' (some e) []
      | ok request => exact .sendAll h _ _ _
    | frame => exact alike_frame h
    | start => exact .unchanged _ s s' none []
    | check => exact alike_check h

end Alike

/-! ## The order of the tickers -/

/-- The room, if its ticker begins to wait when its slot is put back. -/
def arrival (r : Registry) (id : RoomId) (slot : Room.Slot) : List RoomId :=
  if slot.ticker.isSome && !r.queue.contains id then [id] else []

theorem queue_put (r : Registry) (id : RoomId) (slot : Room.Slot) :
    (r.put id slot).queue = r.queue ++ arrival r id slot := by
  simp only [Registry.put, Registry.queueWith, arrival]
  split
  · rfl
  · rw [List.append_nil]

/-- Whether a ticker begins to wait does not depend on the tickers of other rooms. -/
theorem arrival_put (r : Registry) {id id' : RoomId} (h : id' ≠ id) (slot slot' : Room.Slot) :
    arrival (r.put id slot) id' slot' = arrival r id' slot' := by
  have hcontains : (r.put id slot).queue.contains id' = r.queue.contains id' := by
    rw [queue_put, arrival]
    split <;> simp [h]
  rw [arrival, arrival, hcontains]

/-- Two servers that differ at most in the order in which the tickers of their rooms wait; the same
tickers do. -/
structure SameButOrder (s s' : Server) : Prop where
  same : s' = { s with registry := { s.registry with queue := s'.registry.queue } }
  queue : s'.registry.queue.Perm s.registry.queue

namespace SameButOrder

variable {s s' : Server} {a b : Option RoomId}

theorem refl (s : Server) : SameButOrder s s := ⟨rfl, .refl _⟩

theorem trans {s'' : Server} (h : SameButOrder s s') (h' : SameButOrder s' s'') :
    SameButOrder s s'' := by
  refine ⟨?_, h'.queue.trans h.queue⟩
  rw [h'.same, h.same]

/-- A ticker that begins to wait does so in both. -/
theorem withSlot (h : SameButOrder s s') (a : Option RoomId) (slot : Room.Slot) :
    SameButOrder (s.withSlot a slot) (s'.withSlot a slot) := by
  cases a with
  | none => exact h
  | some id =>
    obtain ⟨hsame, hqueue⟩ := h
    generalize s'.registry.queue = queue at hsame hqueue
    subst hsame
    refine ⟨rfl, ?_⟩
    have hcontains : queue.contains id = s.registry.queue.contains id := by
      rw [Bool.eq_iff_iff, List.contains_iff_mem, List.contains_iff_mem, hqueue.mem_iff]
    simp only [Server.withSlot, Registry.put, Registry.queueWith, hcontains]
    split
    · exact hqueue.append_right [id]
    · exact hqueue

theorem amend (h : SameButOrder s s') (a : Option RoomId) (slots : List Room.Slot) :
    SameButOrder (s.amend a slots) (s'.amend a slots) := by
  induction slots generalizing s s' with
  | nil => exact h
  | cons slot slots ih => exact ih (h.withSlot a slot)

/-- **Slots of different rooms** are put in either order. -/
theorem withSlot_comm (h : ∀ room, a = some room → b ≠ some room) (s : Server)
    (slot slot' : Room.Slot) :
    SameButOrder ((s.withSlot a slot).withSlot b slot') ((s.withSlot b slot').withSlot a slot) := by
  cases a with
  | none => exact refl _
  | some id =>
    cases b with
    | none => exact refl _
    | some id' =>
      have hne : id' ≠ id := fun heq => h id rfl (congrArg some heq)
      -- the slots are the same, and only the two places in the queue may be in the other order
      have hrooms : (s.registry.rooms.update id' fun _ => slot').update id (fun _ => slot) =
          (s.registry.rooms.update id fun _ => slot).update id' fun _ => slot' := by
        refine Table.ext_get? fun room => ?_
        simp only [Table.get?_update_ite]
        by_cases hid : room = id
        · have hid' : room ≠ id' := fun heq => hne (heq.symm.trans hid)
          rw [if_pos hid, if_neg hid', if_neg hid', if_pos hid]
        · rw [if_neg hid, if_neg hid]
      constructor
      · simp only [Server.withSlot, Registry.put, hrooms]
      · show ((s.registry.put id' slot').put id slot).queue.Perm
          ((s.registry.put id slot).put id' slot').queue
        rw [queue_put, queue_put, queue_put, queue_put, arrival_put _ hne,
          arrival_put _ (Ne.symm hne), List.append_assoc, List.append_assoc]
        exact List.perm_append_comm.append_left _

theorem amend_withSlot (h : ∀ room, a = some room → b ≠ some room) (s : Server)
    (slots : List Room.Slot) (slot : Room.Slot) :
    SameButOrder ((s.amend a slots).withSlot b slot) ((s.withSlot b slot).amend a slots) := by
  induction slots generalizing s with
  | nil => exact refl _
  | cons first slots ih =>
    exact (ih (s.withSlot a first)).trans ((withSlot_comm h s first slot).amend a slots)

theorem amend_comm (h : ∀ room, a = some room → b ≠ some room) (s : Server)
    (slots slots' : List Room.Slot) :
    SameButOrder ((s.amend a slots).amend b slots') ((s.amend b slots').amend a slots) := by
  -- the slots of one room pass those of the other one by one
  induction slots' generalizing s with
  | nil => exact refl _
  | cons slot slots' ih =>
    exact ((amend_withSlot h s slots slot).amend b slots').trans (ih (s.withSlot b slot))

end SameButOrder

/-- What a packet for another room leaves alone. -/
theorem sameFor_onBattle {s : Server} {conn : ConnId} {p : Packet}
    (hp : BattleCommand.ofByte p.command ≠ .ok .connect) {id : Option RoomId}
    (h : ∀ room, id = some room → s.targetRoom conn p ≠ some room) :
    SameFor id s (s.onBattle conn p).server := by
  obtain ⟨-, -, slots, hserver, -⟩ :=
    (alike_onBattle hp (SameFor.refl (s.targetRoom conn p) s)).amended
  rw [hserver]
  exact .of_amend h s slots

/-- The server, with the numbers that the tickers of its rooms draw when they are started. -/
def withDraws (s : Server) (draw : RoomId → Nat) : Server := { s with chance.draw := draw }

/-- **Battle packets for different rooms commute.** Two packets, neither of them a `connect`, that
are not for the same room are handled in either order at one time, where the ticker of each room has
its own number to draw, the same in both orders, whatever that may be. Each packet returns the same
error and sends the same packets to the same connections in both orders, and the servers they leave
are the same, with the same directory, rooms and schedules; only the tickers that both have started
wait in the order of their starts. -/
theorem rooms_commute (s : Server) (draw : RoomId → Nat) (conn conn' : ConnId) (p p' : Packet)
    (hp : BattleCommand.ofByte p.command ≠ .ok .connect)
    (hp' : BattleCommand.ofByte p'.command ≠ .ok .connect)
    (hrooms : ∀ room, s.targetRoom conn p = some room → s.targetRoom conn' p' ≠ some room) :
    let start := s.withDraws draw
    let first := start.onBattle conn p
    let second := start.onBattle conn' p'
    let secondLast := first.server.onBattle conn' p'
    let firstLast := second.server.onBattle conn p
    (firstLast.error = first.error ∧ firstLast.sent = first.sent) ∧
      (secondLast.error = second.error ∧ secondLast.sent = second.sent) ∧
      SameButOrder secondLast.server firstLast.server := by
  intro start first second secondLast firstLast
  have hstart : ∀ room, start.targetRoom conn p = some room →
      start.targetRoom conn' p' ≠ some room := hrooms
  have hstart' : ∀ room, start.targetRoom conn' p' = some room →
      start.targetRoom conn p ≠ some room :=
    fun room hroom' hroom => hrooms room hroom hroom'
  obtain ⟨herror, hsent, slots, hserver, hlast⟩ : _ ∧ _ ∧ ∃ slots, first.server = _ ∧ _ :=
    (alike_onBattle hp (sameFor_onBattle hp' hstart)).amended
  obtain ⟨herror', hsent', slots', hserver', hlast'⟩ : _ ∧ _ ∧ ∃ slots, second.server = _ ∧ _ :=
    (alike_onBattle hp' (sameFor_onBattle hp hstart')).amended
  refine ⟨⟨herror, hsent⟩, ⟨herror', hsent'⟩, ?_⟩
  -- both packets put the slots that they would have put alone
  show SameButOrder (first.server.onBattle conn' p').server (second.server.onBattle conn p).server
  rw [hlast, hlast', hserver, hserver']
  exact .amend_comm hstart start slots slots'

/-! ## Two rooms -/

/-- Players 101 and 102 fill one room, and 103 and 104 another. Of each pair the first is ready, and
the second connected. -/
def twoBattles : List Event :=
  (pairRun 12).take 8 ++
    [.ofLobby 3 .login (LoginRequest.mk "c" ""),
    .ofLobby 4 .login (LoginRequest.mk "d" ""),
    .ofLobby 3 .createRoom (CreateRoomRequest.mk ⟨103⟩),
    .ofLobby 3 .joinRoom (JoinRoomRequest.mk ⟨10002⟩ ⟨103⟩),
    .ofLobby 4 .joinRoom (JoinRoomRequest.mk ⟨10002⟩ ⟨104⟩),
    .ofBattle 13 .connect (ConnectRequest.mk ⟨103⟩ 0),
    .ofBattle 13 .ready (ReadyRequest.mk ⟨103⟩ ⟨10002⟩),
    .ofBattle 14 .connect (ConnectRequest.mk ⟨104⟩ 0)]

/-- The battles of both rooms start at one instant. The ticker of room 10001 puts its first tick off
by 1 µs and that of 10002 by 2 µs, whichever is started first. -/
theorem rooms_commute_starts :
    let s := stateAfter pairSetup twoBattles
    let draw : RoomId → Nat := fun room => room.num.toNat
    let start := s.withDraws draw
    let ready : Packet := ⟨BattleCommand.ready.toByte, encodeBody (ReadyRequest.mk ⟨102⟩ ⟨10001⟩)⟩
    let ready' : Packet := ⟨BattleCommand.ready.toByte, encodeBody (ReadyRequest.mk ⟨104⟩ ⟨10002⟩)⟩
    let secondLast := ((start.onBattle ⟨12⟩ ready).server.onBattle ⟨14⟩ ready').server
    let firstLast := ((start.onBattle ⟨14⟩ ready').server.onBattle ⟨12⟩ ready).server
    let due := fun t : Server => t.registry.rooms.values.map fun slot =>
      slot.ticker.map Tick.Schedule.next
    s.targetRoom ⟨12⟩ ready = some ⟨10001⟩ ∧ s.targetRoom ⟨14⟩ ready' = some ⟨10002⟩ ∧
      due start = [none, none] ∧ due secondLast = [some 33001000, some 33002000] ∧
      due firstLast = [some 33001000, some 33002000] ∧
      secondLast.registry.queue = [⟨10001⟩, ⟨10002⟩] ∧
      firstLast.registry.queue = [⟨10002⟩, ⟨10001⟩] ∧ SameButOrder secondLast firstLast := by
  intro s draw start ready ready' secondLast firstLast due
  have hready : s.targetRoom ⟨12⟩ ready = some ⟨10001⟩ := by
    decide +kernel
  have hready' : s.targetRoom ⟨14⟩ ready' = some ⟨10002⟩ := by
    decide +kernel
  have hrooms : ∀ room, s.targetRoom ⟨12⟩ ready = some room →
      s.targetRoom ⟨14⟩ ready' ≠ some room := by
    rw [hready, hready']
    rintro _ ⟨⟩
    decide
  obtain ⟨-, -, hsame⟩ :=
    rooms_commute s draw ⟨12⟩ ⟨14⟩ ready ready' (by decide) (by decide) hrooms
  exact ⟨hready, hready', by decide +kernel, by decide +kernel, by decide +kernel,
    by decide +kernel, by decide +kernel, hsame⟩

end FrameSync.Server
