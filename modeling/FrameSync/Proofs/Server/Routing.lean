import FrameSync.Proofs.Server.Agreement

/-!
# What a member does reaches its room

An input or an integrity value carries no room, and neither does a connection that is bound or lost.
The server looks up the room that the directory has recorded for the player and goes on with that
one. `Asks` is what such an event asks of the room of its player, and `room_step_asks` that the
event does this to the room recorded and nothing to any other.

Because members are recorded where they are (`consistent_run`), the room that is found is the one
the player plays in, and the player plays in no other (`membership_agrees`).
-/

set_option autoImplicit false

namespace FrameSync.Server

open Wire

/-- What an event of a player asks of the room it has joined: the player's connection sends an input
or an integrity value, the player connects, perhaps once more, or its connection is gone. -/
inductive Asks (s : Server) (player : PlayerId) : Event → Room.Op → Prop where
  | frame (conn : ConnId) (p : Packet) (i : FrameInput) :
    s.directory.playerByBattle conn = some player → BattleCommand.ofByte p.command = .ok .frame →
    readBody FrameInput p.payload = .ok i → Asks s player (.battle conn p) (.input player i)
  | check (conn : ConnId) (p : Packet) (c : CheckRequest) :
    s.directory.playerByBattle conn = some player → BattleCommand.ofByte p.command = .ok .check →
    readBody CheckRequest p.payload = .ok c → Asks s player (.battle conn p) (.check player c)
  | connect (conn : ConnId) (p : Packet) (request : ConnectRequest) :
    (Event.battle conn p).connect? = some (conn, request) → request.player = player →
    Asks s player (.battle conn p) (.rebind player conn)
  | disconnect (conn : ConnId) :
    s.directory.playerByBattle conn = some player →
    Asks s player (.battleDisconnected conn) (.disconnect player)

/-- The room that is tracked under a number. -/
def roomAt (rooms : Table RoomId Room.Slot) (id : RoomId) : Option Room :=
  (rooms.get? id).map Room.Slot.room

section Reach

variable {s : Server} {player : PlayerId} {conn : ConnId} {p : Packet} {id : RoomId}
  {slot : Room.Slot} {op : Room.Op}

theorem roomAt_eq_some {rooms : Table RoomId Room.Slot} (hget : rooms.get? id = some slot) :
    roomAt rooms id = some slot.room := by
  rw [roomAt, hget]
  rfl

/-- A change of one room leaves the others alone. -/
theorem roomAt_update (rooms : Table RoomId Room.Slot) (f : Room.Slot → Room.Slot) (id' : RoomId) :
    roomAt (rooms.update id f) id' =
      if id' = id then (rooms.get? id).map fun slot => (f slot).room else roomAt rooms id' := by
  rw [roomAt, Table.get?_update_ite]
  by_cases hid : id' = id
  · rw [hid, if_pos rfl, if_pos rfl, Option.map_map]
    rfl
  · rw [if_neg hid, if_neg hid]
    rfl

/-- The room of a player that is registered can be found. -/
theorem contains_of_roomOf {d : Directory} (hroom : d.roomOf player = some id) :
    d.contains player = true := by
  rw [Directory.roomOf] at hroom
  obtain ⟨record, hrecord, -⟩ := Option.bind_eq_some_iff.mp hroom
  exact Option.isSome_iff_exists.mpr ⟨record, hrecord⟩

theorem resolve_of_joined (hplayer : s.directory.playerByBattle conn = some player)
    (hroom : s.directory.roomOf player = some id) (hget : s.registry.rooms.get? id = some slot) :
    s.resolve conn = some (player, id, slot) := by
  simp only [resolve, hplayer, hroom, get_eq_ok_iff.mpr hget]

/-- An operation has happened to a tracked room. A refused one leaves the server alone. -/
def Applied (s : Server) (id : RoomId) (slot : Room.Slot) (op : Room.Op) (s' : Server) : Prop :=
  s' = s ∧ (slot.room.apply op).2 = slot.room ∨
    s' = { s with registry := s.registry.put id { slot with room := (slot.room.apply op).2 } }

namespace Applied

variable {s' : Server}

theorem directory (h : Applied s id slot op s') : s'.directory = s.directory := by
  rcases h with ⟨rfl, -⟩ | rfl <;> rfl

/-- The tracked rooms afterwards: that one has changed, with nothing else of its slot. -/
theorem get? (h : Applied s id slot op s') (hget : s.registry.rooms.get? id = some slot)
    (id' : RoomId) :
    s'.registry.rooms.get? id' =
      if id' = id then some { slot with room := (slot.room.apply op).2 }
      else s.registry.rooms.get? id' := by
  rcases h with ⟨rfl, hsame⟩ | rfl
  · rw [hsame]
    split
    · rename_i hid
      rw [hid, hget]
    · rfl
  · rw [put_rooms, Table.get?_update_ite]
    by_cases hid : id' = id
    · rw [if_pos hid, if_pos hid, hid, hget, Option.map_some]
    · rw [if_neg hid, if_neg hid]

theorem roomAt (h : Applied s id slot op s') (hget : s.registry.rooms.get? id = some slot)
    (id' : RoomId) :
    roomAt s'.registry.rooms id' =
      if id' = id then some (slot.room.apply op).2 else roomAt s.registry.rooms id' := by
  rw [Server.roomAt, h.get? hget]
  split <;> rfl

end Applied

theorem applied_frame (hcommand : BattleCommand.ofByte p.command = .ok .frame) {i : FrameInput}
    (hinput : readBody FrameInput p.payload = .ok i)
    (hresolve : s.resolve conn = some (player, id, slot)) :
    Applied s id slot (.input player i) (s.onBattle conn p).server := by
  simp only [Applied, onBattle, hcommand, frame, hinput, hresolve, Room.apply]
  cases slot.room.recordInput player i with
  | error e => exact Or.inl ⟨rfl, rfl⟩
  | ok room => exact Or.inr rfl

theorem applied_check (hcommand : BattleCommand.ofByte p.command = .ok .check) {c : CheckRequest}
    (hrequest : readBody CheckRequest p.payload = .ok c)
    (hresolve : s.resolve conn = some (player, id, slot)) :
    Applied s id slot (.check player c) (s.onBattle conn p).server := by
  simp only [Applied, onBattle, hcommand, check, hrequest, hresolve, Room.apply]
  cases slot.room.submitCheck player c with
  | error e =>
    rw [send_server]
    exact Or.inl ⟨rfl, rfl⟩
  | ok submitted =>
    obtain ⟨verdict, room⟩ := submitted
    cases verdict with
    | none => exact Or.inr rfl
    | some verdict =>
      rw [sendAll_server]
      exact Or.inr rfl

/-- An operation on the room that a player has joined. -/
theorem roomAt_onRoomOf {d : Directory} {rooms : Table RoomId Room.Slot}
    (hroom : d.roomOf player = some id) (hget : rooms.get? id = some slot)
    {f : Room.Slot → Room.Slot} (hf : (f slot).room = (slot.room.apply op).2) (id' : RoomId) :
    roomAt (onRoomOf d player f rooms) id' =
      if id' = id then some (slot.room.apply op).2 else roomAt rooms id' := by
  simp only [onRoomOf, hroom]
  rw [roomAt_update, hget, Option.map_some, hf]

/-- **What a player's event asks for happens in the room recorded for the player**, and in no
other. -/
theorem room_step_asks (h : Consistent s.directory s.registry.rooms)
    (hroom : s.directory.roomOf player = some id) (hget : s.registry.rooms.get? id = some slot)
    {e : Event} (hasks : Asks s player e op) (id' : RoomId) :
    roomAt (s.step e).2.registry.rooms id' =
      if id' = id then some (slot.room.apply op).2 else roomAt s.registry.rooms id' := by
  cases hasks with
  | frame conn p i hplayer hcommand hinput =>
    exact (applied_frame hcommand hinput (resolve_of_joined hplayer hroom hget)).roomAt hget id'
  | check conn p c hplayer hcommand hrequest =>
    exact (applied_check hcommand hrequest (resolve_of_joined hplayer hroom hget)).roomAt hget id'
  | connect conn p request hconnect hrequest =>
    subst hrequest
    -- the player is registered, so the connection is bound, and that leaves its room as it is
    obtain ⟨replaced, d, hbind⟩ := Directory.bindBattle_of_contains (contains_of_roomOf hroom) conn
    have hbound := Directory.bound_of_bindBattle h.directory hbind
    rw [(step_connect s conn hconnect hbind).2]
    exact roomAt_onRoomOf ((hbound.roomOf _).trans hroom) hget rfl id'
  | disconnect conn hplayer =>
    obtain ⟨-, -, hrooms, -⟩ := Directory.unbindBattle_spec h.directory hplayer
    show roomAt (s.battleDisconnected conn).registry.rooms id' = _
    rw [(battleDisconnected_eq s conn hplayer).2]
    exact roomAt_onRoomOf ((hrooms _).trans hroom) hget (slot_disconnect_room slot player) id'

end Reach

/-- **A member is recorded where it is.** In every state that a server reaches while each account
has a number of its own, a member of an open room is registered and recorded to be there, is a
member of no other open room, and whatever it sends or does on the battle channel happens in that
room and in no other. -/
theorem membership_agrees (setup : Setup) (es : List Event)
    (haccounts : (stateAfter setup es).directory.accounts.length ≤ UInt32.size) :
    let s := stateAfter setup es
    ∀ id slot, s.registry.rooms.get? id = some slot → slot.room.phase ≠ .closed →
      ∀ player ∈ slot.room.members,
        s.directory.contains player = true ∧ s.directory.roomOf player = some id ∧
        (∀ id' slot', s.registry.rooms.get? id' = some slot' → slot'.room.phase ≠ .closed →
          player ∈ slot'.room.members → id' = id) ∧
        ∀ e op, Asks s player e op → ∀ id',
          roomAt (s.step e).2.registry.rooms id' =
            if id' = id then some (slot.room.apply op).2 else roomAt s.registry.rooms id' := by
  intro s id slot hget hopen player hmember
  have hconsistent := consistent_run setup es haccounts
  have hroom := hconsistent.joined id slot hget hopen player hmember
  refine ⟨contains_of_roomOf hroom, hroom, ?_, ?_⟩
  · intro id' slot' hget' hopen' hmember'
    have hroom' := hconsistent.joined id' slot' hget' hopen' player hmember'
    exact Option.some.inj (hroom'.symm.trans hroom)
  · intro e op hasks id'
    exact room_step_asks hconsistent hroom hget hasks id'

/-- Two players in a battle: one of them has reconnected on 13, and what it sends there is recorded
in its room. -/
theorem membership_agrees_pair :
    (stateAfter pairSetup (pairRun 13)).directory.accounts.length ≤ UInt32.size ∧
      ∃ slot, (stateAfter pairSetup (pairRun 13)).registry.rooms.get? ⟨10001⟩ = some slot ∧
        slot.room.phase = .running ∧ slot.room.members = [⟨101⟩, ⟨102⟩] ∧
        (stateAfter pairSetup (pairRun 13)).directory.roomOf ⟨102⟩ = some ⟨10001⟩ ∧
        roomAt ((stateAfter pairSetup (pairRun 13)).step
            (.ofBattle 13 .frame (FrameInput.mk 1 0x20))).2.registry.rooms ⟨10001⟩ =
          some (slot.room.apply (.input ⟨102⟩ ⟨1, 0x20⟩)).2 := by
  have haccounts : (stateAfter pairSetup (pairRun 13)).directory.accounts.length ≤ UInt32.size := by
    decide +kernel
  have hsome : ((stateAfter pairSetup (pairRun 13)).registry.rooms.get? ⟨10001⟩).isSome = true := by
    decide +kernel
  obtain ⟨slot, hget⟩ := Option.isSome_iff_exists.mp hsome
  have hroom : roomAt (stateAfter pairSetup (pairRun 13)).registry.rooms ⟨10001⟩ = some slot.room :=
    roomAt_eq_some hget
  have hview : (roomAt (stateAfter pairSetup (pairRun 13)).registry.rooms ⟨10001⟩).map
      (fun r => (r.phase, r.members)) = some (.running, [⟨101⟩, ⟨102⟩]) := by
    decide +kernel
  rw [hroom, Option.map_some, Option.some.injEq, Prod.mk.injEq] at hview
  have hopen : slot.room.phase ≠ .closed := by
    rw [hview.1]
    decide
  have hmember : ⟨102⟩ ∈ slot.room.members := by
    rw [hview.2]
    decide
  obtain ⟨-, hjoined, -, hreaches⟩ :=
    membership_agrees pairSetup (pairRun 13) haccounts ⟨10001⟩ slot hget hopen ⟨102⟩ hmember
  have hasks : Asks (stateAfter pairSetup (pairRun 13)) ⟨102⟩
      (.ofBattle 13 .frame (FrameInput.mk 1 0x20)) (.input ⟨102⟩ ⟨1, 0x20⟩) :=
    .frame ⟨13⟩ _ _ (by decide +kernel) (by decide +kernel) (by rfl)
  exact ⟨haccounts, slot, hget, hview.1, hview.2, hjoined,
    (hreaches _ _ hasks ⟨10001⟩).trans (if_pos rfl)⟩

end FrameSync.Server
