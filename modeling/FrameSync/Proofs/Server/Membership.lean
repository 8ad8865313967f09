import FrameSync.Proofs.Server.Steps
import Mathlib.Data.List.Induction

/-!
# Members are recorded where they are

A server keeps two stores, and what one says about the other has to be kept by the handlers. What
every event keeps is `Consistent`: the directory is in order, every tracked room is well formed, and
a member of an open room is recorded to have joined that room. The last part holds because a player
joins a room only while it is in no other open one, and because the join is recorded before the next
event. It needs every account to have a number of its own, which the numbers of 32 bits allow for
`UInt32.size` accounts.
-/

set_option autoImplicit false

namespace FrameSync.Server

open Wire

/-! ## Rooms that go on -/

/-- Each room that is there now was there before, and has gone on without anybody joining. -/
def GoneOn (rooms rooms' : Table RoomId Room.Slot) : Prop :=
  ∀ id slot', rooms'.get? id = some slot' → ∃ slot ops, rooms.get? id = some slot ∧
    slot'.room = (Room.run slot.room ops).2 ∧ ∀ p, Room.Op.join p ∉ ops

section GoneOn

variable {rooms rooms' : Table RoomId Room.Slot} {d : Directory} {id : RoomId}
  {player : PlayerId} {f : Room.Slot → Room.Slot}

theorem GoneOn.of_subset
    (h : ∀ id slot, rooms'.get? id = some slot → rooms.get? id = some slot) :
    GoneOn rooms rooms' := by
  intro id slot hget
  exact ⟨slot, [], h id slot hget, rfl, fun p => List.not_mem_nil⟩

/-- One operation on one room. -/
theorem GoneOn.update (op : Room.Op)
    (hroom : ∀ slot, rooms.get? id = some slot → (f slot).room = (slot.room.apply op).2)
    (hop : ∀ p, op ≠ .join p) : GoneOn rooms (rooms.update id f) := by
  intro id' slot' hget
  rw [Table.get?_update_ite] at hget
  split at hget
  · rename_i hid
    subst hid
    obtain ⟨slot, hslot, rfl⟩ := Option.map_eq_some_iff.mp hget
    exact ⟨slot, [op], hslot, hroom slot hslot, fun p hp => hop p (List.mem_singleton.mp hp).symm⟩
  · exact ⟨slot', [], hget, rfl, fun p => List.not_mem_nil⟩

/-- One operation on the room that a player has joined. -/
theorem GoneOn.onRoomOf (op : Room.Op)
    (hroom : ∀ slot, (f slot).room = (slot.room.apply op).2)
    (hop : ∀ p, op ≠ .join p) : GoneOn rooms (onRoomOf d player f rooms) := by
  rw [Server.onRoomOf]
  cases d.roomOf player with
  | none => exact .of_subset fun _ _ hget => hget
  | some id => exact .update op (fun slot _ => hroom slot) hop

/-- Operations on all rooms. -/
theorem GoneOn.mapValues
    (hroom : ∀ slot, ∃ ops, (f slot).room = (Room.run slot.room ops).2 ∧
      ∀ p, Room.Op.join p ∉ ops) : GoneOn rooms (rooms.mapValues f) := by
  intro id slot' hget
  rw [Table.get?_mapValues] at hget
  obtain ⟨slot, hslot, rfl⟩ := Option.map_eq_some_iff.mp hget
  obtain ⟨ops, hops, hjoin⟩ := hroom slot
  exact ⟨slot, ops, hslot, hops, hjoin⟩

end GoneOn

/-! ## The invariant -/

/-- How the directory and the rooms of a server hang together. The directory is in order, and so is
every tracked room. A room is tracked under its number, and the members of an open room are recorded
to be there. -/
structure Consistent (d : Directory) (rooms : Table RoomId Room.Slot) : Prop where
  directory : d.Consistent
  wellFormed : ∀ id slot, rooms.get? id = some slot → slot.room.WellFormed
  tracked : ∀ id slot, rooms.get? id = some slot → slot.room.id = id
  joined : ∀ id slot, rooms.get? id = some slot → slot.room.phase ≠ .closed →
    ∀ p ∈ slot.room.members, d.roomOf p = some id

section Consistent

variable {s : Server} {e : Event} {d d' : Directory} {rooms rooms' : Table RoomId Room.Slot}

theorem consistent_new (setup : Setup) :
    Consistent (new setup).directory (new setup).registry.rooms where
  directory := Directory.consistent_empty setup.playerBase
  wellFormed := by
    intro id slot hget
    cases hget
  tracked := by
    intro id slot hget
    cases hget
  joined := by
    intro id slot hget
    cases hget

/-- Rooms that go on while nobody's room is recorded anew. -/
theorem Consistent.goneOn (h : Consistent d rooms) (hd : d'.Consistent)
    (hroomOf : ∀ p, d'.roomOf p = d.roomOf p) (hrooms : GoneOn rooms rooms') :
    Consistent d' rooms' := by
  refine ⟨hd, ?_, ?_, ?_⟩
  · intro id slot' hget
    obtain ⟨slot, ops, hslot, hroom, -⟩ := hrooms id slot' hget
    rw [hroom]
    exact Room.wellFormed_run (h.wellFormed id slot hslot) ops
  · intro id slot' hget
    obtain ⟨slot, ops, hslot, hroom, -⟩ := hrooms id slot' hget
    rw [hroom, Room.run_id (h.wellFormed id slot hslot) ops]
    exact h.tracked id slot hslot
  · intro id slot' hget hopen p hp
    obtain ⟨slot, ops, hslot, hroom, hjoin⟩ := hrooms id slot' hget
    have hwell := h.wellFormed id slot hslot
    rw [hroom] at hopen hp
    rw [hroomOf]
    refine h.joined id slot hslot (Room.run_open_before hwell hopen) p ?_
    exact (Room.mem_members_run hwell hp).resolve_right (hjoin p)

/-- A new room has no members. -/
theorem Consistent.create (h : Consistent d rooms) (id : RoomId) (c : BattleConfig)
    (stopped : Bool) :
    Consistent d (rooms.insert id (.ofRoom (Room.new id c) stopped)) := by
  refine ⟨h.directory, ?_, ?_, ?_⟩
  · intro id' slot hget
    rw [Table.get?_insert] at hget
    split at hget
    · rw [← Option.some.inj hget]
      exact Room.wellFormed_new id c
    · exact h.wellFormed id' slot hget
  · intro id' slot hget
    rw [Table.get?_insert_ite] at hget
    split at hget
    · rename_i hid
      rw [← Option.some.inj hget]
      exact hid.symm
    · exact h.tracked id' slot hget
  · intro id' slot hget hopen p hp
    rw [Table.get?_insert] at hget
    split at hget
    · -- the new room itself
      rw [← Option.some.inj hget] at hp
      exact absurd hp List.not_mem_nil
    · exact h.joined id' slot hget hopen p hp

/-- Who joins a room is in no other open one, and is recorded to be in this one. -/
theorem Consistent.join (h : Consistent d rooms) {player : PlayerId} {id : RoomId}
    {slot : Room.Slot} {room : Room} {outcome : Room.Joined}
    (hfree : ∀ other slot', d.roomOf player = some other → other ≠ id →
      rooms.get? other = some slot' → slot'.room.phase = .closed)
    (hget : rooms.get? id = some slot) (hjoin : slot.room.join player = .ok (outcome, room))
    (hd : d'.Consistent)
    (hroomOf : ∀ p, d'.roomOf p = if p = player then some id else d.roomOf p) :
    Consistent d' (rooms.update id fun _ => { slot with room }) := by
  have hwell := h.wellFormed id slot hget
  have happly : slot.room.apply (.join player) = (.joined outcome, room) := by
    rw [Room.apply, hjoin]
  have hchange := Room.change_of_apply hwell happly
  refine ⟨hd, ?_, ?_, ?_⟩
  · intro id' slot' hget'
    rw [Table.get?_update_ite] at hget'
    split at hget'
    · obtain ⟨-, -, rfl⟩ := Option.map_eq_some_iff.mp hget'
      exact Room.wellFormed_join hwell hjoin
    · exact h.wellFormed id' slot' hget'
  · intro id' slot' hget'
    rw [Table.get?_update_ite] at hget'
    split at hget'
    · rename_i hid
      obtain ⟨-, -, rfl⟩ := Option.map_eq_some_iff.mp hget'
      exact hchange.id_eq.trans ((h.tracked id slot hget).trans hid.symm)
    · exact h.tracked id' slot' hget'
  · intro id' slot' hget' hopen p hp
    rw [Table.get?_update_ite] at hget'
    rw [hroomOf]
    split at hget'
    · rename_i hid
      obtain ⟨-, -, rfl⟩ := Option.map_eq_some_iff.mp hget'
      by_cases hplayer : p = player
      · rw [if_pos hplayer, hid]
      · -- who was in the room before the player is still recorded to be
        rw [if_neg hplayer, hid]
        refine h.joined id slot hget (hchange.open_before hopen) p ?_
        exact (hchange.mem_members hp).resolve_right fun heq => hplayer (by cases heq; rfl)
    · -- In another room the player is no member, for that would be an open room it has joined.
      rename_i hid
      have hroom := h.joined id' slot' hget' hopen p hp
      have hplayer : p ≠ player := by
        rintro rfl
        exact hopen (hfree id' slot' hroom hid hget')
      rw [if_neg hplayer]
      exact hroom

theorem slot_disconnect_room (slot : Room.Slot) (player : PlayerId) :
    (slot.disconnect player).2.room = (slot.room.apply (.disconnect player)).2 := by
  simp only [Room.Slot.disconnect, Room.apply]
  split <;> rfl

theorem mem_reclaim {r : Registry} {id : RoomId} {slot : Room.Slot}
    (hget : r.reclaim.2.rooms.get? id = some slot) : r.rooms.get? id = some slot := by
  have hfilter := (Table.get?_filter r.rooms (fun _ s => !s.stopped) id).symm.trans hget
  exact (Option.filter_eq_some_iff.mp hfilter).1

/-- **Every event keeps the directory and the rooms together.** -/
theorem consistent_change (h : Consistent s.directory s.registry.rooms)
    (hchange : Change s e d rooms) (haccounts : d.accounts.length ≤ UInt32.size) :
    Consistent d rooms := by
  cases hchange with
  | idle => exact h
  | loggedIn conn p account =>
    obtain ⟨hsame, hd⟩ := Directory.login_spec h.directory haccounts
    exact h.goneOn hd hsame.roomOf (.of_subset fun _ _ hget => hget)
  | created =>
    refine Consistent.create ?_ _ _ _
    exact h.goneOn h.directory (fun _ => rfl) (.of_subset fun _ _ => mem_reclaim)
  | joined conn p player id slot room outcome d hcontains hfree hget hjoin hset =>
    -- the player is registered, so that the room is recorded without fail
    obtain ⟨d', hset', -, hroomOf, -, -, hd⟩ :=
      Directory.setRoom_spec h.directory hcontains (some id)
    have heq : d' = d := Except.ok.inj (hset'.symm.trans hset)
    subst heq
    exact h.join hfree hget hjoin hd hroomOf
  | lobbyLeft conn =>
    obtain ⟨hsame, hd⟩ := Directory.unbindLobby_spec h.directory conn
    exact h.goneOn hd hsame.roomOf (.of_subset fun _ _ hget => hget)
  | bound conn p request replaced d hconnect hbind =>
    have hbound := Directory.bound_of_bindBattle h.directory hbind
    refine h.goneOn (Directory.consistent_bindBattle h.directory hbind) hbound.roomOf ?_
    refine .onRoomOf (.rebind request.player conn) (fun _ => rfl) ?_
    rintro _ ⟨⟩
  | readied conn p player id slot slot' outcome hasks hplayer hget hready =>
    refine h.goneOn h.directory (fun _ => rfl) (.update (.ready player conn s.now) ?_ ?_)
    · intro slot₁ hget₁
      rw [Option.some.inj (hget₁.symm.trans hget), Room.apply, hready]
    · rintro _ ⟨⟩
  | played conn p player id slot op hplayer hroom hget hop =>
    refine h.goneOn h.directory (fun _ => rfl) (.update op ?_ ?_)
    · intro slot₁ hget₁
      rw [Option.some.inj (hget₁.symm.trans hget)]
    · rcases hop with ⟨i, rfl⟩ | ⟨c, rfl⟩ <;> rintro _ ⟨⟩
  | battleLeft conn player hplayer =>
    obtain ⟨-, -, hroomOf, -, -, hd⟩ := Directory.unbindBattle_spec h.directory hplayer
    refine h.goneOn hd hroomOf (.onRoomOf (.disconnect player) ?_ ?_)
    · exact fun slot => slot_disconnect_room slot player
    · rintro _ ⟨⟩
  | closed id =>
    refine h.goneOn h.directory (fun _ => rfl) (.update .close (fun _ _ => rfl) ?_)
    rintro _ ⟨⟩
  | reclaimed => exact h.goneOn h.directory (fun _ => rfl) (.of_subset fun _ _ => mem_reclaim)
  | shut =>
    refine h.goneOn h.directory (fun _ => rfl) (.mapValues fun slot => ⟨[.close], rfl, ?_⟩)
    intro p hp
    cases List.mem_singleton.mp hp
  | passed e start target =>
    -- to a room the passing of time is a number of ticks
    refine h.goneOn h.directory (fun _ => rfl) (.mapValues fun slot => ?_)
    obtain ⟨n, hroom, -⟩ := Room.Slot.runTicker_spec s.encoder slot start target
    refine ⟨List.replicate n .tick, hroom, ?_⟩
    intro p hp
    cases List.eq_of_mem_replicate hp

/-- **In every state that a server reaches** the directory and the rooms hang together. -/
theorem consistent_run (setup : Setup) (es : List Event)
    (haccounts : (stateAfter setup es).directory.accounts.length ≤ UInt32.size) :
    Consistent (stateAfter setup es).directory (stateAfter setup es).registry.rooms := by
  induction es using List.reverseRecOn with
  | nil => exact consistent_new setup
  | append_singleton es e ih =>
    rw [stateAfter_snoc] at haccounts ⊢
    have hchange := change_step (stateAfter setup es) e
    have hbefore := ih (Nat.le_trans hchange.accounts_le haccounts)
    exact consistent_change hbefore hchange haccounts

end Consistent

end FrameSync.Server
