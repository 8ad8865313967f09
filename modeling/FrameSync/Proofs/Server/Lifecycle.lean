import FrameSync.Proofs.Room.TickTask
import FrameSync.Proofs.Server.Start

/-!
# Slots and their rooms

Whether a room is over is kept twice: the room is closed, and its slot is stopped. Joins and `ready`
look at the one, reclaiming at the other. They are set on different paths (by the tick of the last
frame, by the last disconnect, by an order to close the room, by the ticker itself), but after each
event they agree, and so does the ticker: it waits exactly in the slots of running rooms (`InStep`).
What can keep them apart are operations on the room around its slot that close it, and there are
none on a server, and a slot that is made stopped, which only a registry that has been shut down
does.

So dropping the stopped slots is dropping the closed rooms (`lifecycles_agree`).
-/

set_option autoImplicit false

namespace FrameSync

open Wire Tick

/-! ## One slot -/

namespace Room.Slot

/-- The slot, its room and its ticker are in step: the slot is stopped exactly if the room is
closed, and the ticker waits exactly if the room is running. -/
structure InStep (s : Slot) : Prop where
  stopped : s.stopped = true ↔ s.room.phase = .closed
  ticker : s.ticker.isSome = true ↔ s.room.phase = .running

section InStep

variable {s : Slot} {room : Room} {player : PlayerId} {conn : ConnId}

/-- A new slot is in step, unless it comes too late. -/
theorem inStep_ofRoom (id : RoomId) (c : BattleConfig) : (ofRoom (Room.new id c) false).InStep where
  stopped := ⟨nofun, nofun⟩
  ticker := ⟨nofun, nofun⟩

/-- Before it is running, a room may go on waiting in another way. -/
theorem InStep.waits (h : s.InStep)
    (hbefore : s.room.phase = .created ∨ s.room.phase = .waitingReady)
    (hafter : room.phase = .created ∨ room.phase = .waitingReady) :
    InStep { s with room } where
  stopped := by
    rw [h.stopped]
    rcases hbefore with hbefore | hbefore <;> rcases hafter with hafter | hafter <;>
      simp only [hbefore, hafter, reduceCtorEq]
  ticker := by
    rw [h.ticker]
    rcases hbefore with hbefore | hbefore <;> rcases hafter with hafter | hafter <;>
      simp only [hbefore, hafter, reduceCtorEq]

/-- What leaves the phase of the room alone leaves them in step. -/
theorem InStep.of_phase (h : s.InStep) (hphase : room.phase = s.room.phase) :
    InStep { s with room } where
  stopped := by
    rw [h.stopped, hphase]
  ticker := by
    rw [h.ticker, hphase]

/-- A slot that is stopped with its room. -/
theorem inStep_stop (hclosed : s.room.phase = .closed) : s.stop.InStep where
  stopped := ⟨fun _ => hclosed, fun _ => rfl⟩
  ticker := by
    refine ⟨nofun, fun hrunning => ?_⟩
    cases hclosed.symm.trans hrunning

/-- The operations that a server carries out on a room around its slot. -/
inductive GoesAround : Room.Op → Prop where
  | join (player : PlayerId) : GoesAround (.join player)
  | rebind (player : PlayerId) (conn : ConnId) : GoesAround (.rebind player conn)
  | input (player : PlayerId) (i : FrameInput) : GoesAround (.input player i)
  | check (player : PlayerId) (c : CheckRequest) : GoesAround (.check player c)

/-- **An operation around the slot** neither starts nor closes the room. -/
theorem InStep.around (h : s.InStep) (hwell : s.room.WellFormed) {op : Room.Op}
    (hop : GoesAround op) : InStep { s with room := (s.room.apply op).2 } := by
  have hchange := change_apply hwell op
  generalize (s.room.apply op).1 = answer at hchange
  generalize (s.room.apply op).2 = room at hchange ⊢
  cases hchange with
  | refused | rejoined | enrolled | rebound | recorded | checked => exact h.of_phase rfl
  | joined player hnew hphase hplace =>
    -- the room still waits, whether a place is left or not
    refine h.waits (Or.inl hphase) ?_
    show (if _ then Phase.waitingReady else .created) = _ ∨ _
    split
    · exact Or.inr rfl
    · exact Or.inl rfl
  | started | idle | ticked | left | leftLast | closed => cases hop

/-- A member that becomes ready, and is not the last one. -/
theorem InStep.ready (h : s.InStep) {now : Nat} {outcome : Readied}
    (hbecome : s.room.becomeReady player conn now = .ok (outcome, room))
    (hstart : outcome.start = none) : InStep { s with room } := by
  obtain ⟨-, -, -, -, ⟨-, -, hannounced⟩ | ⟨-, rfl, -⟩⟩ := becomeReady_eq_ok hbecome
  · rw [hstart] at hannounced
    cases hannounced
  · exact h.of_phase rfl

/-- A disconnect stops the slot if it closes the room. -/
theorem InStep.disconnect (h : s.InStep) (player : PlayerId) : (s.disconnect player).2.InStep := by
  have hslot : (s.disconnect player).2 =
      if (s.room.disconnect player).1.closed then
        Slot.stop { s with room := (s.room.disconnect player).2 }
      else { s with room := (s.room.disconnect player).2 } := rfl
  rw [hslot]
  rcases disconnect_cases s.room player with ⟨hroom, hopen, -⟩ | ⟨hroom, hclosed, -⟩
  · rw [hopen, hroom]
    exact h.of_phase rfl
  · rw [if_pos hclosed, hroom]
    exact inStep_stop (close_phase _)

theorem inStep_close (s : Slot) : s.close.InStep := inStep_stop (close_phase s.room)

/-- The start of the battle starts the ticker: a room that waits is not closed, so its slot is not
stopped. -/
theorem InStep.start (h : s.InStep) (hwaits : s.room.phase = .waitingReady)
    (hfirst : s.tickerStarted = false) (hrunning : room.phase = .running)
    (now draw : Nat) : ({ s with room }.spawnTicker now draw).2.InStep := by
  have hgoes : s.stopped = false := by
    refine Bool.eq_false_iff.mpr fun hstopped => ?_
    cases hwaits.symm.trans (h.stopped.mp hstopped)
  have hspawn : ({ s with room }.spawnTicker now draw).2 = { s with
      room
      tickerStarted := true
      ticker := some (Schedule.start room.config.tick now draw) } := by
    have hfirst' : ({ s with room } : Slot).tickerStarted = false := hfirst
    rw [Server.slot_spawnTicker_eq hfirst']
    simp only [hgoes]
    rfl
  rw [hspawn]
  refine ⟨⟨fun hstopped => ?_, fun hclosed => ?_⟩, ⟨fun _ => hrunning, fun _ => rfl⟩⟩
  · rw [hgoes] at hstopped
    cases hstopped
  · cases hrunning.symm.trans hclosed

/-- **A ticker that ends** has closed its room, and stops the slot with it. -/
theorem inStep_runSchedule (encoder : Encoder) {s : Slot} {schedule : Schedule} {now target : Nat}
    (hwell : s.room.WellFormed) (hrunning : s.room.phase = .running) (hgoes : s.stopped = false) :
    (s.runSchedule encoder schedule now target).2.InStep := by
  fun_induction runSchedule encoder s schedule now target with
  | case1 s schedule now hdue fired ticked s₁ hnone =>
    -- the tick of a running room answers a frame
    exact absurd hnone (tick_ne_none hwell hrunning)
  | case2 s schedule now hdue fired ticked s₁ out hout firing s₂ hlast =>
    have hphase := phase_of_tick hwell hout
    rw [if_pos hlast] at hphase
    exact inStep_stop hphase
  | case3 s schedule now hdue fired ticked s₁ out hout firing s₂ hlast later ih =>
    have hphase := phase_of_tick hwell hout
    rw [if_neg hlast] at hphase
    exact ih (wellFormed_tick hwell) hphase hgoes
  | case4 s schedule now hwaits =>
    refine ⟨⟨fun hstopped => ?_, fun hclosed => ?_⟩, ⟨fun _ => hrunning, fun _ => rfl⟩⟩
    · cases hgoes.symm.trans hstopped
    · cases hrunning.symm.trans hclosed

theorem InStep.runTicker (h : s.InStep) (hwell : s.room.WellFormed) (encoder : Encoder)
    (now target : Nat) : (s.runTicker encoder now target).2.InStep := by
  rw [Slot.runTicker]
  cases hticker : s.ticker with
  | none => exact h
  | some schedule =>
    have hrunning := h.ticker.mp (Option.isSome_iff_exists.mpr ⟨schedule, hticker⟩)
    refine inStep_runSchedule encoder hwell hrunning (Bool.eq_false_iff.mpr fun hstopped => ?_)
    cases hrunning.symm.trans (h.stopped.mp hstopped)

end InStep

end Room.Slot

/-! ## All slots -/

namespace Server

/-- Every tracked slot is in step. -/
def AllInStep (rooms : Table RoomId Room.Slot) : Prop :=
  ∀ id slot, rooms.get? id = some slot → slot.InStep

section AllInStep

variable {s : Server} {e : Event} {rooms : Table RoomId Room.Slot} {d : Directory}
  {f : Room.Slot → Room.Slot}

theorem AllInStep.update (h : AllInStep rooms) {id : RoomId}
    (hf : ∀ slot, rooms.get? id = some slot → (f slot).InStep) : AllInStep (rooms.update id f) := by
  intro id' slot' hget
  rw [Table.get?_update_ite] at hget
  split at hget
  · rename_i hid
    subst hid
    obtain ⟨slot, hslot, rfl⟩ := Option.map_eq_some_iff.mp hget
    exact hf slot hslot
  · exact h id' slot' hget

theorem AllInStep.onRoomOf (h : AllInStep rooms) {player : PlayerId}
    (hf : ∀ id slot, rooms.get? id = some slot → (f slot).InStep) :
    AllInStep (onRoomOf d player f rooms) := by
  rw [Server.onRoomOf]
  split
  · exact h
  · exact h.update (hf _)

/-- **Every event** but a `ready` or a shutdown keeps all slots in step. -/
theorem AllInStep.change (h : AllInStep s.registry.rooms) (htracked : Tracked s.registry.rooms)
    (hgoes : s.registry.stopped = false) (hchange : Change s e d rooms) (hready : e.ready? = none)
    (hshut : e ≠ .shutdownRooms) : AllInStep rooms := by
  cases hchange with
  | idle | loggedIn | lobbyLeft => exact h
  | created conn p request hcreate hcontains =>
    intro id slot hget
    have hinsert := (Table.get?_insert_ite _ _ _ _).symm.trans hget
    split at hinsert
    · -- the new room, of a registry that has not been shut down
      cases hinsert
      have hnew : s.registry.reclaim.2.stopped = false := hgoes
      rw [hnew]
      exact Room.Slot.inStep_ofRoom _ _
    · exact h id slot (mem_reclaim hinsert)
  | joined conn p player id slot room outcome d' hcontains hfree hslot hjoin hset =>
    refine h.update fun slot₁ hslot₁ => ?_
    cases hslot.symm.trans hslot₁
    have happly : slot.room.apply (.join player) = (.joined outcome, room) := by
      rw [Room.apply, hjoin]
    have hstep := (h id slot hslot).around (htracked id slot hslot).1 (.join player)
    rwa [happly] at hstep
  | bound conn p request replaced d' hconnect hbind =>
    refine h.onRoomOf fun id slot hslot => ?_
    exact (h id slot hslot).around (htracked id slot hslot).1 (.rebind request.player conn)
  | readied conn p player id slot slot' outcome hasks =>
    rw [hasks] at hready
    cases hready
  | played conn p player id slot op hplayer hroom hslot hop =>
    refine h.update fun slot₁ hslot₁ => ?_
    cases hslot.symm.trans hslot₁
    refine (h id slot hslot).around (htracked id slot hslot).1 ?_
    rcases hop with ⟨i, rfl⟩ | ⟨c, rfl⟩
    · exact .input player i
    · exact .check player c
  | battleLeft conn player hplayer =>
    exact h.onRoomOf fun id slot hslot => (h id slot hslot).disconnect player
  | closed id => exact h.update fun slot _ => Room.Slot.inStep_close slot
  | reclaimed => exact fun id slot hget => h id slot (mem_reclaim hget)
  | shut => exact absurd rfl hshut
  | passed e start target =>
    intro id slot' hget
    rw [Table.get?_mapValues] at hget
    obtain ⟨slot, hslot, rfl⟩ := Option.map_eq_some_iff.mp hget
    exact (h id slot hslot).runTicker (htracked id slot hslot).1 s.encoder start target

/-- A `ready` keeps them in step, whether it starts the battle or not. -/
theorem AllInStep.ready (h : AllInStep s.registry.rooms) {conn : ConnId} {request : ReadyRequest}
    (hencoder : s.encoder = .standard) {c : BattleConfig}
    (horder : ∀ id slot, s.registry.rooms.get? id = some slot → InOrder c id slot)
    (hready : e.ready? = some (conn, request)) : AllInStep (s.step e).2.registry.rooms := by
  rcases ready_cases hencoder hready with ⟨-, hrooms⟩ |
    ⟨slot, room, outcome, -, hslot, hbecome, hstart, -, hrooms⟩
  · rcases hrooms with hrooms | ⟨slot, room, outcome, hslot, hbecome, hstart, hrooms⟩
    · rw [hrooms]
      exact h
    · rw [hrooms]
      refine h.update fun slot₁ hslot₁ => ?_
      cases hslot.symm.trans hslot₁
      exact (h request.room slot hslot).ready hbecome hstart
  · -- the last player is ready: the ticker has not been started before
    rw [hrooms]
    refine h.update fun slot₁ hslot₁ => ?_
    cases hslot.symm.trans hslot₁
    have hslotOrder := horder request.room slot hslot
    obtain ⟨hwaits, hnext, hrunning, -⟩ :=
      start_of_becomeReady hslotOrder.wellFormed hbecome hstart
    exact (h request.room slot hslot).start hwaits (hslotOrder.not_started hnext) hrunning
      s.now _

/-- **After every run** without a shutdown all slots are in step. -/
theorem allInStep_run (setup : Setup) (hencoder : setup.encoder = .standard) (es : List Event)
    (hshut : .shutdownRooms ∉ es) :
    AllInStep (stateAfter setup es).registry.rooms ∧
      (stateAfter setup es).registry.stopped = false := by
  -- by the last event, which meets slots that are in step
  induction es using List.reverseRecOn with
  | nil =>
    refine ⟨?_, rfl⟩
    intro id slot hget
    cases hget
  | append_singleton es e ih =>
    rw [List.mem_append, List.mem_singleton, not_or] at hshut
    obtain ⟨h, hgoes⟩ := ih hshut.1
    have hrecounts := recounts_run setup hencoder es
    have hstandard := hrecounts.encoder.trans hencoder
    rw [stateAfter_snoc]
    refine ⟨?_, (sameSettings_step _ (Ne.symm hshut.2)).stopped.trans hgoes⟩
    cases hready : e.ready? with
    | none =>
      exact h.change hrecounts.tracked hgoes (change_step _ e) hready (Ne.symm hshut.2)
    | some asked => exact h.ready hstandard hrecounts.slots hready

/-- **What is reclaimed** are the closed rooms, -/
theorem AllInStep.reclaimed_iff (h : AllInStep s.registry.rooms) {id : RoomId} {slot : Room.Slot} :
    s.registry.reclaim.1.get? id = some slot ↔
      s.registry.rooms.get? id = some slot ∧ slot.room.phase = .closed := by
  have hfilter := Table.get?_filter s.registry.rooms (fun _ slot => slot.stopped) id
  rw [show s.registry.reclaim.1.get? id = _ from hfilter, Option.filter_eq_some_iff]
  exact and_congr_right fun hslot => (h id slot hslot).stopped

/-- and all others are kept. -/
theorem AllInStep.kept_iff (h : AllInStep s.registry.rooms) {id : RoomId} {slot : Room.Slot} :
    s.registry.reclaim.2.rooms.get? id = some slot ↔
      s.registry.rooms.get? id = some slot ∧ slot.room.phase ≠ .closed := by
  have hfilter := Table.get?_filter s.registry.rooms (fun _ slot => !slot.stopped) id
  rw [show s.registry.reclaim.2.rooms.get? id = _ from hfilter, Option.filter_eq_some_iff]
  refine and_congr_right fun hslot => ?_
  rw [Bool.not_eq_true', ← Bool.not_eq_true]
  exact not_congr (h id slot hslot).stopped

/-- **Slots and their rooms stay in step.** After every event of a run in which the rooms are not
shut down, a tracked slot is stopped exactly if its room is closed, and the ticker of every running
room has been started and waits. So what a request for a new room drops are the closed rooms and no
others, and all rooms that are open are tracked afterwards. -/
theorem lifecycles_agree (setup : Setup) (hencoder : setup.encoder = .standard) (es : List Event)
    (hshut : .shutdownRooms ∉ es) :
    let s := stateAfter setup es
    (∀ id slot, s.registry.rooms.get? id = some slot →
        (slot.stopped = true ↔ slot.room.phase = .closed) ∧
        (slot.room.phase = .running →
          slot.tickerStarted = true ∧ ∃ schedule, slot.ticker = some schedule)) ∧
      (∀ id slot, s.registry.reclaim.1.get? id = some slot ↔
        s.registry.rooms.get? id = some slot ∧ slot.room.phase = .closed) ∧
      ∀ e request, e.create? = some request → s.directory.contains request.player = true →
        ∀ id slot, id ≠ s.registry.roomId (s.registry.created + 1) →
          ((s.step e).2.registry.rooms.get? id = some slot ↔
            s.registry.rooms.get? id = some slot ∧ slot.room.phase ≠ .closed) := by
  intro s
  obtain ⟨h, -⟩ := allInStep_run setup hencoder es hshut
  refine ⟨?_, fun id slot => h.reclaimed_iff, ?_⟩
  · intro id slot hslot
    refine ⟨(h id slot hslot).stopped, fun hrunning => ?_⟩
    have hwaits := (h id slot hslot).ticker.mpr hrunning
    have horder := (recounts_run setup hencoder es).slots id slot hslot
    exact ⟨horder.ticker hwaits, Option.isSome_iff_exists.mp hwaits⟩
  · intro e request hcreate hcontains id slot hid
    -- the new room is put beside the rooms that are kept
    rw [registry_of_create hcreate hcontains, ← h.kept_iff]
    have hnew : s.registry.reclaim.2.create.2.rooms.get? id = s.registry.reclaim.2.rooms.get? id :=
      Table.get?_insert_of_ne _ _ (Ne.symm hid)
    rw [hnew]

end AllInStep

/-- A battle is on, another room has been made and closed by an order, and player 102 asks for a
third one. -/
def pairRooms : List Event :=
  pairRun 13 ++ [.ofLobby 1 .createRoom (CreateRoomRequest.mk ⟨101⟩), .closeRoom ⟨10002⟩, .sleep 200]

/-- The closed room is dropped, and the battle goes on. -/
theorem lifecycles_agree_pair :
    let s := stateAfter pairSetup pairRooms
    let s' := (s.step (.ofLobby 2 .createRoom (CreateRoomRequest.mk ⟨102⟩))).2
    (.shutdownRooms ∉ pairRooms) ∧ s.registry.ids = [⟨10001⟩, ⟨10002⟩] ∧
      s'.registry.ids = [⟨10001⟩, ⟨10003⟩] ∧
      ∃ slot, s'.registry.rooms.get? ⟨10001⟩ = some slot ∧ slot.room.phase = .running ∧
        ∃ schedule, slot.ticker = some schedule := by
  intro s s'
  have hshut : .shutdownRooms ∉ pairRooms := by
    decide +kernel
  obtain ⟨hslots, -, hkept⟩ := lifecycles_agree pairSetup rfl pairRooms hshut
  have hcreate : (Event.ofLobby 2 .createRoom (CreateRoomRequest.mk ⟨102⟩)).create? =
      some (CreateRoomRequest.mk ⟨102⟩) := by
    decide +kernel
  have hcontains : s.directory.contains ⟨102⟩ = true := by
    decide +kernel
  have hrunning : ∃ x ∈ s.registry.rooms.entries, x.1 = ⟨10001⟩ ∧ x.2.room.phase = .running := by
    decide +kernel
  have hnew : (⟨10001⟩ : RoomId) ≠ s.registry.roomId (s.registry.created + 1) := by
    decide +kernel
  refine ⟨hshut, by decide +kernel, by decide +kernel, ?_⟩
  obtain ⟨⟨id, slot⟩, hmem, hid, hphase⟩ := hrunning
  have hslot : s.registry.rooms.get? ⟨10001⟩ = some slot :=
    Table.get?_eq_some_iff_mem.mpr (hid ▸ hmem)
  have hopen : slot.room.phase ≠ .closed := by
    rw [hphase]
    decide
  exact ⟨slot, (hkept _ _ hcreate hcontains _ slot hnew).mpr ⟨hslot, hopen⟩, hphase,
    ((hslots _ slot hslot).2 hphase).2⟩

end Server

end FrameSync
