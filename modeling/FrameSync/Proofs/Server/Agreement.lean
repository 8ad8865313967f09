import FrameSync.Proofs.Server.Membership

/-!
# Ready entries and battle connections

A ready entry says where the frames of a player go, and the directory says who speaks on which
battle connection. `ReadyAgrees` is that the two say the same. One thing breaks it (`TakesOver`): a
connection that speaks for a ready player is bound to another player. The directory then takes the
connection off the first player, but the entry of that player stays in its room, and its frames
still go where they went.

`ready_agrees_iff` says that nothing else does, in whatever order players connect, become ready,
reconnect and leave. Where nothing is taken over, a frame goes to each connection once, to none but
those that speak for a player of the room, and no room runs on without connections.
-/

set_option autoImplicit false

namespace FrameSync.Server

open Wire

/-- In every open room, a ready player speaks on the connection of its entry. -/
def ReadyAgrees (d : Directory) (rooms : Table RoomId Room.Slot) : Prop :=
  ∀ id slot, rooms.get? id = some slot → slot.room.phase ≠ .closed → ∀ entry ∈ slot.room.ready,
    d.battleConn entry.player = some entry.conn ∧
      d.playerByBattle entry.conn = some entry.player

instance (d : Directory) (rooms : Table RoomId Room.Slot) : Decidable (ReadyAgrees d rooms) :=
  decidable_of_iff
    (∀ x ∈ rooms.entries, x.2.room.phase ≠ .closed → ∀ entry ∈ x.2.room.ready,
      d.battleConn entry.player = some entry.conn ∧ d.playerByBattle entry.conn = some entry.player)
    ⟨fun h id slot hget => h (id, slot) (Table.get?_eq_some_iff_mem.mp hget),
      fun h x hx => h x.1 x.2 (Table.get?_eq_some_iff_mem.mpr hx)⟩

/-- The event binds the connection of a player who is ready in an open room to another player. -/
def TakesOver (s : Server) (e : Event) : Prop :=
  ∃ conn request, e.connect? = some (conn, request) ∧
    s.directory.contains request.player = true ∧
    ∃ id slot, s.registry.rooms.get? id = some slot ∧ slot.room.phase ≠ .closed ∧
      ∃ entry ∈ slot.room.ready, entry.conn = conn ∧ entry.player ≠ request.player

/-- Taking over, said of the request and the listed rooms. -/
theorem takesOver_iff {s : Server} {e : Event} :
    TakesOver s e ↔ ∃ bind ∈ e.connect?, s.directory.contains bind.2.player = true ∧
      ∃ x ∈ s.registry.rooms.entries, x.2.room.phase ≠ .closed ∧
        ∃ entry ∈ x.2.room.ready, entry.conn = bind.1 ∧ entry.player ≠ bind.2.player := by
  constructor
  · rintro ⟨conn, request, hconnect, hcontains, id, slot, hget, hentry⟩
    have hmem := Table.get?_eq_some_iff_mem.mp hget
    exact ⟨(conn, request), hconnect, hcontains, (id, slot), hmem, hentry⟩
  · rintro ⟨⟨conn, request⟩, hconnect, hcontains, ⟨id, slot⟩, hmem, hentry⟩
    have hget := Table.get?_eq_some_iff_mem.mpr hmem
    exact ⟨conn, request, hconnect, hcontains, id, slot, hget, hentry⟩

instance (s : Server) (e : Event) : Decidable (TakesOver s e) :=
  decidable_of_iff' _ takesOver_iff

section Step

variable {s : Server} {e : Event} {d d' : Directory} {rooms rooms' : Table RoomId Room.Slot}
  {id : RoomId} {slot slot' : Room.Slot}

/-! ## Entries that are kept -/

/-- The entries of the open rooms were all there before. -/
def KeepsReady (rooms rooms' : Table RoomId Room.Slot) : Prop :=
  ∀ id slot', rooms'.get? id = some slot' → slot'.room.phase ≠ .closed →
    ∀ entry ∈ slot'.room.ready, ∃ slot, rooms.get? id = some slot ∧ slot.room.phase ≠ .closed ∧
      entry ∈ slot.room.ready

theorem ReadyAgrees.keeps (h : ReadyAgrees d rooms) (hconns : ∀ p, d'.battleConn p = d.battleConn p)
    (hplayers : ∀ c, d'.playerByBattle c = d.playerByBattle c) (hrooms : KeepsReady rooms rooms') :
    ReadyAgrees d' rooms' := by
  intro id slot' hget hopen entry he
  obtain ⟨slot, hslot, hopen', he'⟩ := hrooms id slot' hget hopen entry he
  rw [hconns, hplayers]
  exact h id slot hslot hopen' entry he'

theorem KeepsReady.of_subset
    (h : ∀ id slot, rooms'.get? id = some slot → rooms.get? id = some slot) :
    KeepsReady rooms rooms' := by
  intro id slot hget hopen entry he
  exact ⟨slot, h id slot hget, hopen, he⟩

/-- An operation that sets no entry, on one room. -/
theorem KeepsReady.update (h : Consistent d rooms) (op : Room.Op) {f : Room.Slot → Room.Slot}
    (hroom : ∀ slot, rooms.get? id = some slot → (f slot).room = (slot.room.apply op).2)
    (hop : ∀ entry, ¬op.Sets entry) : KeepsReady rooms (rooms.update id f) := by
  intro id' slot' hget hopen entry he
  rw [Table.get?_update_ite] at hget
  split at hget
  · rename_i hid
    subst hid
    obtain ⟨slot, hslot, rfl⟩ := Option.map_eq_some_iff.mp hget
    have hchange := Room.change_apply (h.wellFormed id' slot hslot) op
    rw [hroom slot hslot] at hopen he
    exact ⟨slot, hslot, hchange.open_before hopen,
      (hchange.mem_ready_or_sets he).resolve_right (hop entry)⟩
  · exact ⟨slot', hget, hopen, he⟩

/-- Time passes. -/
theorem KeepsReady.advance (h : Consistent d rooms) (encoder : Encoder) (start target : Nat) :
    KeepsReady rooms (rooms.mapValues fun slot => (slot.runTicker encoder start target).2) := by
  intro id slot' hget hopen entry he
  rw [Table.get?_mapValues] at hget
  obtain ⟨slot, hslot, rfl⟩ := Option.map_eq_some_iff.mp hget
  obtain ⟨n, hroom, -⟩ := Room.Slot.runTicker_spec encoder slot start target
  have hwell := h.wellFormed id slot hslot
  rw [hroom] at hopen he
  rw [(Room.afterTicks_spec hwell n).2] at he
  exact ⟨slot, hslot, Room.run_open_before hwell hopen, he⟩

/-! ## Entries that are set and dropped -/

theorem get?_onRoomOf {player : PlayerId} (f : Room.Slot → Room.Slot) :
    (onRoomOf d player f rooms).get? id =
      if d.roomOf player = some id then (rooms.get? id).map f else rooms.get? id := by
  rw [onRoomOf]
  cases d.roomOf player with
  | none => rw [if_neg (Option.some_ne_none id).symm]
  | some id' =>
    simp only [Option.some.injEq, @eq_comm _ id' id]
    exact Table.get?_update_ite rooms id' id f

/-- A ready player has joined the open room it is ready in. -/
theorem roomOf_of_ready (h : Consistent d rooms) (hget : rooms.get? id = some slot)
    (hopen : slot.room.phase ≠ .closed) {entry : Room.ReadyEntry} (he : entry ∈ slot.room.ready) :
    d.roomOf entry.player = some id := by
  have hroster := Room.mem_roster_iff.mpr ⟨entry, he, rfl⟩
  exact h.joined id slot hget hopen _ ((h.wellFormed id slot hget).roster_subset _ hroster)

/-- An operation on the room that a player has joined, while the directory changes for that player
only: the entries of the others agree with it as before, and those after the operation are theirs
or agree with it too. -/
theorem ReadyAgrees.onRoomOf (h : Consistent d rooms) (hroomOf : ∀ p, d'.roomOf p = d.roomOf p)
    {player : PlayerId} {f : Room.Slot → Room.Slot}
    (hother : ∀ id slot, rooms.get? id = some slot → slot.room.phase ≠ .closed →
      ∀ entry ∈ slot.room.ready, entry.player ≠ player →
        d'.battleConn entry.player = some entry.conn ∧
          d'.playerByBattle entry.conn = some entry.player)
    (hentries : ∀ id slot, rooms.get? id = some slot → (f slot).room.phase ≠ .closed →
      ∀ entry ∈ (f slot).room.ready,
        (slot.room.phase ≠ .closed ∧ entry ∈ slot.room.ready ∧ entry.player ≠ player) ∨
        (d'.battleConn entry.player = some entry.conn ∧
          d'.playerByBattle entry.conn = some entry.player)) :
    ReadyAgrees d' (Server.onRoomOf d' player f rooms) := by
  intro id slot' hget hopen entry he
  rw [get?_onRoomOf] at hget
  split at hget
  · obtain ⟨slot, hslot, rfl⟩ := Option.map_eq_some_iff.mp hget
    rcases hentries id slot hslot hopen entry he with ⟨hbefore, hkept, hne⟩ | hagrees
    · exact hother id slot hslot hbefore entry hkept hne
    · exact hagrees
  · -- in a room that it has not joined the player has no entry
    rename_i hroom
    refine hother id slot' hget hopen entry he ?_
    intro heq
    rw [hroomOf, ← heq] at hroom
    exact hroom (roomOf_of_ready h hget hopen he)

/-- **A binding that takes nothing over** keeps the agreement: the player's entry follows it to the
connection, and the connection is that of no other entry. -/
theorem ReadyAgrees.bound (h : Consistent d rooms) (hagrees : ReadyAgrees d rooms)
    {player : PlayerId} {conn : ConnId} (hbound : Directory.Bound d player conn d')
    (hfree : ∀ id slot, rooms.get? id = some slot → slot.room.phase ≠ .closed →
      ∀ entry ∈ slot.room.ready, entry.conn = conn → entry.player = player) :
    ReadyAgrees d' (Server.onRoomOf d' player (fun slot => (slot.rebind player conn).2) rooms) := by
  refine .onRoomOf h hbound.roomOf ?_ ?_
  · -- the entries of other players name other connections, whose bindings are as they were
    intro id slot hget hopen entry he hne
    obtain ⟨hconn, hplayer⟩ := hagrees id slot hget hopen entry he
    have hconn' : entry.conn ≠ conn := by
      intro heq
      exact hne (hfree id slot hget hopen entry he heq)
    rw [hbound.battleConn, hbound.playerByBattle, if_neg hne, if_neg hconn']
    constructor
    · refine (if_neg ?_).trans hconn
      intro hspoke
      have hspoken := (h.directory.battle conn entry.player).mp hspoke
      exact hconn' (Option.some.inj (hconn.symm.trans hspoken))
    · refine (if_neg ?_).trans hplayer
      intro hearlier
      have hown := (h.directory.battle entry.conn player).mpr hearlier
      exact hne (Option.some.inj (hplayer.symm.trans hown))
  · intro id slot hget hopen entry he
    have hroom : (slot.rebind player conn).2.room =
        { slot.room with ready := Room.moveEntry player conn slot.room.ready } :=
      Room.rebind_snd slot.room player conn
    rw [hroom] at hopen he
    rcases Room.mem_moveEntry he with ⟨rfl, -⟩ | ⟨hne, he⟩
    · right
      rw [hbound.battleConn, hbound.playerByBattle, if_pos rfl, if_pos rfl]
      exact ⟨rfl, rfl⟩
    · exact Or.inl ⟨hopen, he, hne⟩

/-- **Becoming ready** sets an entry with the connection that the player speaks on. -/
theorem ReadyAgrees.readied (h : Consistent d rooms) (hagrees : ReadyAgrees d rooms)
    {player : PlayerId} {conn : ConnId} {now : Nat} {outcome : Room.Readied}
    (hplayer : d.playerByBattle conn = some player) (hget : rooms.get? id = some slot)
    (hready : slot.room.becomeReady player conn now = .ok (outcome, slot'.room)) :
    ReadyAgrees d (rooms.update id fun _ => slot') := by
  have happly : slot.room.apply (.ready player conn now) = (.readied outcome, slot'.room) := by
    rw [Room.apply, hready]
  have hchange := Room.change_of_apply (h.wellFormed id slot hget) happly
  intro id' slot₁ hget' hopen entry he
  rw [Table.get?_update] at hget'
  split at hget'
  · obtain ⟨-, -, rfl⟩ := Option.map_eq_some_iff.mp hget'
    rcases hchange.mem_ready_or_sets he with he | hset
    · exact hagrees id slot hget (hchange.open_before hopen) entry he
    · cases hset
      exact ⟨(h.directory.battle conn player).mp hplayer, hplayer⟩
  · exact hagrees id' slot₁ hget' hopen entry he

/-- **A battle connection that is gone** takes the entry of its player with it. -/
theorem ReadyAgrees.left (h : Consistent d rooms) (hagrees : ReadyAgrees d rooms)
    {player : PlayerId} {conn : ConnId} (hplayer : d.playerByBattle conn = some player) :
    ReadyAgrees (d.unbindBattle conn).2 (Server.onRoomOf (d.unbindBattle conn).2 player
      (fun slot => (slot.disconnect player).2) rooms) := by
  obtain ⟨-, -, hroomOf, hconns, hplayers, -⟩ := Directory.unbindBattle_spec h.directory hplayer
  refine .onRoomOf h hroomOf ?_ ?_
  · intro id slot hget hopen entry he hne
    obtain ⟨hconn, hspeaks⟩ := hagrees id slot hget hopen entry he
    rw [hconns, hplayers, if_neg hne]
    refine ⟨hconn, (if_neg ?_).trans hspeaks⟩
    intro heq
    rw [heq] at hspeaks
    exact hne (Option.some.inj (hspeaks.symm.trans hplayer))
  · intro id slot hget hopen entry he
    have hchange := Room.change_apply (h.wellFormed id slot hget) (.disconnect player)
    rw [slot_disconnect_room] at hopen he
    have hnever : ∀ error, (slot.room.apply (.disconnect player)).1 ≠ .refused error := nofun
    rcases hchange.mem_ready hnever he with ⟨he, hkept⟩ | hset
    · refine Or.inl ⟨hchange.open_before hopen, he, ?_⟩
      exact fun heq => hkept (heq ▸ .disconnect player)
    · cases hset

/-! ## What breaks the agreement -/

/-- **Every event that takes no connection over keeps the agreement.** -/
theorem agrees_change (h : Consistent s.directory s.registry.rooms)
    (hagrees : ReadyAgrees s.directory s.registry.rooms) (hfree : ¬TakesOver s e)
    (hchange : Change s e d rooms) (haccounts : d.accounts.length ≤ UInt32.size) :
    ReadyAgrees d rooms := by
  have hsame : ∀ rooms', KeepsReady s.registry.rooms rooms' → ReadyAgrees s.directory rooms' :=
    fun _ hrooms => hagrees.keeps (fun _ => rfl) (fun _ => rfl) hrooms
  cases hchange with
  | idle => exact hagrees
  | loggedIn conn p account =>
    obtain ⟨hd, -⟩ := Directory.login_spec h.directory haccounts
    exact hagrees.keeps hd.battleConn hd.playerByBattle (.of_subset fun _ _ hget => hget)
  | created =>
    refine hsame _ ?_
    intro id slot' hget hopen entry he
    change (Table.insert _ _ _).get? id = some slot' at hget
    rw [Table.get?_insert] at hget
    split at hget
    · -- A new room has no entries.
      rw [← Option.some.inj hget] at he
      exact absurd he List.not_mem_nil
    · exact ⟨slot', mem_reclaim hget, hopen, he⟩
  | joined conn p player id slot room outcome d hcontains hroom hget hjoin hset =>
    obtain ⟨d', hset', -, -, hconns, hplayers, -⟩ :=
      Directory.setRoom_spec h.directory hcontains (some id)
    have heq : d' = d := Except.ok.inj (hset'.symm.trans hset)
    subst heq
    refine hagrees.keeps hconns hplayers (.update h (.join player) ?_ ?_)
    · intro slot₁ hget₁
      rw [Option.some.inj (hget₁.symm.trans hget), Room.apply, hjoin]
    · rintro _ ⟨⟩
  | lobbyLeft conn =>
    obtain ⟨hd, -⟩ := Directory.unbindLobby_spec h.directory conn
    exact hagrees.keeps hd.battleConn hd.playerByBattle (.of_subset fun _ _ hget => hget)
  | bound conn p request replaced d hconnect hbind =>
    have hbound := Directory.bound_of_bindBattle h.directory hbind
    refine hagrees.bound h hbound ?_
    -- an entry of somebody else with this connection is what the event would take over
    intro id slot hget hopen entry he hconn
    refine Classical.byContradiction fun hne => hfree ?_
    exact ⟨conn, request, hconnect, hbound.registered, id, slot, hget, hopen, entry, he, hconn, hne⟩
  | readied conn p player id slot slot' outcome hasks hplayer hget hready =>
    exact hagrees.readied h hplayer hget hready
  | played conn p player id slot op hplayer hroom hget hop =>
    refine hsame _ (.update h op ?_ ?_)
    · intro slot₁ hget₁
      rw [Option.some.inj (hget₁.symm.trans hget)]
    · rcases hop with ⟨i, rfl⟩ | ⟨c, rfl⟩ <;> rintro _ ⟨⟩
  | battleLeft conn player hplayer => exact hagrees.left h hplayer
  | closed id =>
    refine hsame _ (.update h .close (fun _ _ => rfl) ?_)
    rintro _ ⟨⟩
  | reclaimed => exact hsame _ (.of_subset fun _ _ => mem_reclaim)
  | shut =>
    -- no room is left open
    refine hsame _ ?_
    intro id slot' hget hopen
    rw [Table.get?_mapValues] at hget
    obtain ⟨slot, -, rfl⟩ := Option.map_eq_some_iff.mp hget
    exact absurd (Room.close_phase slot.room) hopen
  | passed e start target => exact hsame _ (.advance h s.encoder start target)

/-- **A connection that is taken over** speaks for another player than the entry that names it. -/
theorem not_agrees_of_takesOver (h : Consistent s.directory s.registry.rooms)
    (htakes : TakesOver s e) :
    ¬ReadyAgrees (s.step e).2.directory (s.step e).2.registry.rooms := by
  obtain ⟨conn, request, hconnect, hcontains, id, slot, hget, hopen, entry, he, hconn, hne⟩ := htakes
  obtain ⟨replaced, d', hbind⟩ := Directory.bindBattle_of_contains hcontains conn
  obtain ⟨hdirectory, hrooms⟩ := step_connect s conn hconnect hbind
  have hbound := Directory.bound_of_bindBattle h.directory hbind
  rw [hdirectory, hrooms]
  intro hagrees
  -- The room is still open, and the entry is in it as before.
  have hkept : ∃ slot', (onRoomOf d' request.player
      (fun slot => (slot.rebind request.player conn).2) s.registry.rooms).get? id = some slot' ∧
      slot'.room.phase ≠ .closed ∧ entry ∈ slot'.room.ready := by
    rw [get?_onRoomOf, hget]
    split
    · have hroom : (slot.rebind request.player conn).2.room =
          { slot.room with ready := Room.moveEntry request.player conn slot.room.ready } :=
        Room.rebind_snd slot.room request.player conn
      refine ⟨_, rfl, ?_, ?_⟩
      · rw [hroom]
        exact hopen
      · rw [hroom]
        exact Room.mem_moveEntry_of_ne he hne
    · exact ⟨slot, rfl, hopen, he⟩
  obtain ⟨slot', hget', hopen', he'⟩ := hkept
  have hspeaks := (hagrees id slot' hget' hopen' entry he').2
  rw [hconn, hbound.playerByBattle, if_pos rfl] at hspeaks
  exact hne (Option.some.inj hspeaks).symm

end Step

/-! ## What the agreement is for -/

section Consequences

variable {s : Server} {d : Directory} {rooms : Table RoomId Room.Slot}

/-- **A frame goes to each connection once**, and to none but those that speak for a player of the
room. -/
theorem sent_of_agrees (h : Consistent s.directory s.registry.rooms)
    (hagrees : ReadyAgrees s.directory s.registry.rooms) {start target : Nat} {f : Room.Firing}
    (hf : f ∈ (s.registry.advance s.encoder start target).1) :
    (f.sent.map Delivery.conn).Nodup ∧ ∀ x ∈ f.sent, ∃ player,
      s.directory.playerByBattle x.conn = some player ∧
        s.directory.battleConn player = some x.conn ∧
        s.directory.roomOf player = some f.room := by
  obtain ⟨id, slot, hget, hfired⟩ := Registry.mem_advance.mp hf
  obtain ⟨n, -, hspec⟩ := Room.Slot.runTicker_spec s.encoder slot start target
  have hwell := h.wellFormed id slot hget
  obtain ⟨hopen, hroom, hsent⟩ := (hspec f hfired).sent hwell
  rw [h.tracked id slot hget] at hroom
  have hentries := hagrees id slot hget hopen
  rcases hsent with hsent | hsent
  · rw [hsent]
    exact ⟨List.nodup_nil, fun x hx => absurd hx List.not_mem_nil⟩
  · constructor
    · -- Two entries with one connection are of the player it speaks for, who has one entry only.
      rw [hsent]
      refine List.pairwise_map.mpr ?_
      have hnodup := List.pairwise_map.mp hwell.roster_nodup
      refine hnodup.imp_of_mem ?_
      intro a b ha hb hne heq
      refine hne (Option.some.inj ?_)
      rw [← (hentries a ha).2, heq, (hentries b hb).2]
    · intro x hx
      have hconn : x.conn ∈ slot.room.recipients := hsent ▸ List.mem_map_of_mem hx
      obtain ⟨entry, he, heq⟩ := List.mem_map.mp hconn
      obtain ⟨hbattle, hplayer⟩ := hentries entry he
      rw [heq] at hbattle hplayer
      exact ⟨entry.player, hplayer, hbattle, hroom ▸ roomOf_of_ready h hget hopen he⟩

/-- **No room runs on without connections.** -/
theorem not_running_of_unbound (h : Consistent d rooms) (hagrees : ReadyAgrees d rooms)
    (hunbound : ∀ conn, d.playerByBattle conn = none) {id : RoomId} {slot : Room.Slot}
    (hget : rooms.get? id = some slot) : slot.room.phase ≠ .running := by
  intro hrunning
  obtain ⟨entry, he⟩ :=
    List.exists_mem_of_ne_nil _ ((h.wellFormed id slot hget).ready_ne_nil hrunning)
  have hopen : slot.room.phase ≠ .closed := by
    rw [hrunning]
    decide
  have hplayer := (hagrees id slot hget hopen entry he).2
  rw [hunbound] at hplayer
  cases hplayer

/-- A connection that is reported gone speaks for nobody. -/
theorem playerByBattle_battleDisconnected (h : Consistent s.directory s.registry.rooms)
    (conn : ConnId) : (s.battleDisconnected conn).directory.playerByBattle conn = none := by
  cases hplayer : s.directory.playerByBattle conn with
  | none =>
    rw [battleDisconnected_of_none s conn hplayer]
    exact hplayer
  | some player =>
    obtain ⟨-, -, -, -, hplayers, -⟩ := Directory.unbindBattle_spec h.directory hplayer
    rw [(battleDisconnected_eq s conn hplayer).1, hplayers, if_pos rfl]

/-- A connection that speaks for somebody did so before, unless the event is a packet of it. -/
theorem Change.speaks_before (h : Consistent s.directory s.registry.rooms) {e : Event}
    (hchange : Change s e d rooms) (haccounts : d.accounts.length ≤ UInt32.size) {conn : ConnId}
    {player : PlayerId} (hplayer : d.playerByBattle conn = some player) :
    (∃ p, e = .battle conn p) ∨ ∃ other, s.directory.playerByBattle conn = some other := by
  cases hchange with
  | loggedIn conn' p account =>
    obtain ⟨hd, -⟩ := Directory.login_spec h.directory haccounts
    rw [hd.playerByBattle] at hplayer
    exact Or.inr ⟨player, hplayer⟩
  | joined conn' p joiner id slot room outcome d hcontains hroom hget hjoin hset =>
    obtain ⟨d', hset', -, -, -, hplayers, -⟩ :=
      Directory.setRoom_spec h.directory hcontains (some id)
    rw [← Except.ok.inj (hset'.symm.trans hset), hplayers] at hplayer
    exact Or.inr ⟨player, hplayer⟩
  | lobbyLeft conn' =>
    obtain ⟨hd, -⟩ := Directory.unbindLobby_spec h.directory conn'
    rw [hd.playerByBattle] at hplayer
    exact Or.inr ⟨player, hplayer⟩
  | bound conn' p request replaced d hconnect hbind =>
    have hbound := Directory.bound_of_bindBattle h.directory hbind
    rw [hbound.playerByBattle] at hplayer
    by_cases hconn : conn = conn'
    · -- the connection was bound by a packet of its own
      exact Or.inl ⟨p, by rw [hconn]⟩
    · rw [if_neg hconn] at hplayer
      split at hplayer
      · cases hplayer
      · exact Or.inr ⟨player, hplayer⟩
  | battleLeft conn' other hother =>
    obtain ⟨-, -, -, -, hplayers, -⟩ := Directory.unbindBattle_spec h.directory hother
    rw [hplayers] at hplayer
    split at hplayer
    · cases hplayer
    · exact Or.inr ⟨player, hplayer⟩
  | _ => exact Or.inr ⟨player, hplayer⟩

/-- **Who speaks for somebody has sent something** since it was last reported gone. -/
theorem exists_packet_of_speaks (setup : Setup) (es : List Event)
    (haccounts : (stateAfter setup es).directory.accounts.length ≤ UInt32.size) {conn : ConnId}
    {player : PlayerId}
    (hplayer : (stateAfter setup es).directory.playerByBattle conn = some player) :
    ∃ before p after, es = before ++ .battle conn p :: after ∧
      Event.battleDisconnected conn ∉ after := by
  induction es using List.reverseRecOn generalizing player with
  | nil => cases hplayer
  | append_singleton es e ih =>
    rw [stateAfter_snoc] at haccounts hplayer
    have hchange := change_step (stateAfter setup es) e
    have hspace := Nat.le_trans hchange.accounts_le haccounts
    have hbefore := consistent_run setup es hspace
    have hstays : e ≠ .battleDisconnected conn := by
      rintro rfl
      have hnone := playerByBattle_battleDisconnected hbefore conn
      exact absurd (hnone.symm.trans hplayer) (Option.some_ne_none player).symm
    rcases hchange.speaks_before hbefore haccounts hplayer with ⟨p, rfl⟩ | ⟨other, hother⟩
    · exact ⟨es, p, [], rfl, List.not_mem_nil⟩
    · -- the packet is an earlier one, and the last event does not report the connection gone
      obtain ⟨before, p, after, rfl, hafter⟩ := ih hspace hother
      refine ⟨before, p, after ++ [e], by rw [List.append_assoc, List.cons_append], ?_⟩
      rw [List.mem_append, List.mem_singleton]
      exact fun hmem => hmem.elim hafter fun heq => hstays heq.symm

/-- Ticks fire only while time passes. -/
theorem exists_advance_of_mem_ticks {e : Event} {f : Room.Firing} (hf : f ∈ (s.step e).1.ticks) :
    ∃ start target, f ∈ (s.registry.advance s.encoder start target).1 := by
  cases e with
  | sleep ms => exact ⟨_, _, hf⟩
  | jump ms => exact ⟨_, _, hf⟩
  | closeRoom id =>
    simp only [step] at hf
    split at hf <;> exact absurd hf List.not_mem_nil
  | _ => exact absurd hf List.not_mem_nil

end Consequences

/-! ## Whole runs -/

/-- No event of the run takes a connection over from a ready player. -/
def NoTakeover (setup : Setup) (es : List Event) : Prop :=
  ∀ before e, before ++ [e] <+: es → ¬TakesOver (stateAfter setup before) e

theorem noTakeover_iff {setup : Setup} {es : List Event} :
    NoTakeover setup es ↔
      ∀ i, (h : i < es.length) → ¬TakesOver (stateAfter setup (es.take i)) es[i] := by
  constructor
  · intro hfree i h
    refine hfree (es.take i) es[i] ?_
    rw [List.take_concat_get']
    exact List.take_prefix _ _
  · rintro hfree before e ⟨after, rfl⟩
    have hevent := hfree before.length (by simp)
    simpa using hevent

instance (setup : Setup) (es : List Event) : Decidable (NoTakeover setup es) :=
  decidable_of_iff' _ noTakeover_iff

/-- A run in which nothing is taken over keeps the agreement to its end. -/
theorem agrees_of_noTakeover (setup : Setup) (es : List Event)
    (haccounts : (stateAfter setup es).directory.accounts.length ≤ UInt32.size)
    (hfree : NoTakeover setup es) :
    ReadyAgrees (stateAfter setup es).directory (stateAfter setup es).registry.rooms := by
  induction es using List.reverseRecOn with
  | nil =>
    intro id slot hget
    cases hget
  | append_singleton es e ih =>
    -- what holds of all prefixes of the run holds of those before its last event
    have hprefix : es <+: es ++ [e] := List.prefix_append es [e]
    have hspace := Nat.le_trans (accounts_mono setup hprefix) haccounts
    have hagrees := ih hspace fun before e' h => hfree before e' (h.trans hprefix)
    have hevent : ¬TakesOver (stateAfter setup es) e := hfree es e (List.prefix_refl _)
    rw [stateAfter_snoc] at haccounts ⊢
    exact agrees_change (consistent_run setup es hspace) hagrees hevent (change_step _ e) haccounts

/-- **Ready entries and battle connections.** In a run of a server whose accounts all have numbers
of their own, the ready entries of all open rooms agree with the directory in every state exactly if
no event takes a connection over from a ready player. Then every frame goes to each connection once,
to none but those that speak for a player of the room; and if every battle connection has been
reported gone after its last packet, no room is running. -/
theorem ready_agrees_iff (setup : Setup) (es : List Event)
    (haccounts : (stateAfter setup es).directory.accounts.length ≤ UInt32.size) :
    ((∀ before, before <+: es →
        ReadyAgrees (stateAfter setup before).directory
          (stateAfter setup before).registry.rooms) ↔ NoTakeover setup es) ∧
      (NoTakeover setup es →
        (∀ before e, before ++ [e] <+: es → ∀ f ∈ ((stateAfter setup before).step e).1.ticks,
          (f.sent.map Delivery.conn).Nodup ∧ ∀ x ∈ f.sent, ∃ player,
            (stateAfter setup before).directory.playerByBattle x.conn = some player ∧
              (stateAfter setup before).directory.battleConn player = some x.conn ∧
              (stateAfter setup before).directory.roomOf player = some f.room) ∧
        ((∀ before conn p after, es = before ++ .battle conn p :: after →
            Event.battleDisconnected conn ∈ after) →
          ∀ id slot, (stateAfter setup es).registry.rooms.get? id = some slot →
            slot.room.phase ≠ .running)) := by
  have hspace : ∀ before, before <+: es →
      (stateAfter setup before).directory.accounts.length ≤ UInt32.size :=
    fun before h => Nat.le_trans (accounts_mono setup h) haccounts
  have hfree_before : NoTakeover setup es → ∀ before, before <+: es → NoTakeover setup before :=
    fun hfree before h before' e h' => hfree before' e (h'.trans h)
  refine ⟨⟨?_, ?_⟩, ?_⟩
  · -- an event that takes a connection over breaks the agreement at once
    intro hagrees before e h htakes
    have hbefore : before <+: es := (List.prefix_append before [e]).trans h
    have hafter := hagrees (before ++ [e]) h
    rw [stateAfter_snoc] at hafter
    exact not_agrees_of_takesOver (consistent_run setup before (hspace before hbefore)) htakes hafter
  · intro hfree before h
    exact agrees_of_noTakeover setup before (hspace before h) (hfree_before hfree before h)
  · intro hfree
    constructor
    · intro before e h f hf
      have hbefore : before <+: es := (List.prefix_append before [e]).trans h
      obtain ⟨start, target, hfired⟩ := exists_advance_of_mem_ticks hf
      have hagrees := agrees_of_noTakeover setup before (hspace before hbefore)
        (hfree_before hfree before hbefore)
      exact sent_of_agrees (consistent_run setup before (hspace before hbefore)) hagrees hfired
    · -- a connection that still spoke for somebody would not have been reported gone
      intro hgone id slot hget
      refine not_running_of_unbound (consistent_run setup es haccounts)
        (agrees_of_noTakeover setup es haccounts hfree) ?_ hget
      intro conn
      cases hplayer : (stateAfter setup es).directory.playerByBattle conn with
      | none => rfl
      | some player =>
        obtain ⟨before, p, after, heq, hafter⟩ :=
          exists_packet_of_speaks setup es haccounts hplayer
        exact absurd (hgone before conn p after heq) hafter

/-! ## Two players and one connection -/

/-- The numbers of players start at 101 and those of rooms at 10001. -/
def pairSetup : Setup :=
  { playerBase := 100
    roomBase := 10000
    battle := .standard
    admission := .everyone
    encoder := .standard
    startFailures := 0 }

/-- Every ticker puts its first tick off by 1.5 ms, and connections are listed downward. -/
def lateDownward : Chance where
  draw _ := 1500
  listing _ conns := conns.reverse
  listing_perm _ conns := conns.reverse_perm

def Event.ofLobby {α : Type} [Body α] (conn : Nat) (command : LobbyCommand) (body : α) : Event :=
  .lobby ⟨conn⟩ ⟨command.toByte, encodeBody body⟩

def Event.ofBattle {α : Type} [Body α] (conn : Nat) (command : BattleCommand) (body : α) : Event :=
  .battle ⟨conn⟩ ⟨command.toByte, encodeBody body⟩

/-- Players 101 and 102 fill a room, become ready on battle connections 11 and 12, and then 102
connects on `conn`. -/
def pairRun (conn : Nat) : List Event :=
  [.ofLobby 1 .login (LoginRequest.mk "a" ""),
    .ofLobby 2 .login (LoginRequest.mk "b" ""),
    .ofLobby 1 .createRoom (CreateRoomRequest.mk ⟨101⟩),
    .ofLobby 1 .joinRoom (JoinRoomRequest.mk ⟨10001⟩ ⟨101⟩),
    .ofLobby 2 .joinRoom (JoinRoomRequest.mk ⟨10001⟩ ⟨102⟩),
    .ofBattle 11 .connect (ConnectRequest.mk ⟨101⟩ 0),
    .ofBattle 11 .ready (ReadyRequest.mk ⟨101⟩ ⟨10001⟩),
    .ofBattle 12 .connect (ConnectRequest.mk ⟨102⟩ 0),
    .ofBattle 12 .ready (ReadyRequest.mk ⟨102⟩ ⟨10001⟩),
    .ofBattle conn .connect (ConnectRequest.mk ⟨102⟩ 0)]

/-- On a connection of its own, player 102 reconnects and every frame goes to each connection
once. -/
theorem ready_agrees_reconnect :
    (stateAfter pairSetup (pairRun 13 ++ [.sleep 200])).directory.accounts.length ≤ UInt32.size ∧
      NoTakeover pairSetup (pairRun 13 ++ [.sleep 200]) ∧
      (∀ before, before <+: pairRun 13 ++ [.sleep 200] →
        ReadyAgrees (stateAfter pairSetup before).directory
          (stateAfter pairSetup before).registry.rooms) ∧
      ∀ f ∈ ((stateAfter pairSetup (pairRun 13)).step (.sleep 200)).1.ticks,
        (f.sent.map Delivery.conn).Nodup := by
  obtain ⟨hiff, hsent⟩ :=
    ready_agrees_iff pairSetup (pairRun 13 ++ [.sleep 200]) (by decide +kernel)
  have hfree : NoTakeover pairSetup (pairRun 13 ++ [.sleep 200]) := by
    decide +kernel
  refine ⟨by decide +kernel, hfree, hiff.mpr hfree, ?_⟩
  intro f hf
  exact ((hsent hfree).1 (pairRun 13) (.sleep 200) (List.prefix_refl _) f hf).1

/-- **On the connection of player 101 it does not.** The entry of 101 stays in the room, so the
connection is sent each frame twice, and the room still runs when both connections are gone. -/
theorem ready_disagrees_takeover :
    (¬ReadyAgrees (stateAfter pairSetup (pairRun 11)).directory
        (stateAfter pairSetup (pairRun 11)).registry.rooms) ∧
      (∃ f ∈ ((stateAfter pairSetup (pairRun 11)).step (.sleep 200)).1.ticks,
        f.sent.map Delivery.conn = [⟨11⟩, ⟨11⟩]) ∧
      ∃ x ∈ (stateAfter pairSetup (pairRun 11 ++
          [.battleDisconnected ⟨11⟩, .battleDisconnected ⟨12⟩])).registry.rooms.entries,
        x.2.room.phase = .running := by
  refine ⟨?_, ?_, ?_⟩ <;> decide +kernel

end FrameSync.Server
