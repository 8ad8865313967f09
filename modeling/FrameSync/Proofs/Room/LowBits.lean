import FrameSync.Proofs.Room.TickTask

/-!
# The low bits of inputs

The low bit of an input byte is where a client claims a position, and an integrity value comes with
a position too. Neither is looked at: a room goes by the seat of the player. Here this is said with
a room whose stored inputs have their low bits cleared (`Room.cleared`). Every operation commutes
with clearing: done to the cleared room, with the low bit of its own input cleared, it answers what
it answers anyway and leaves the cleared room, and so for a slot with its ticker.
-/

set_option autoImplicit false

namespace FrameSync

open Wire Tick

/-- A byte without its low bit. -/
def clearLow (b : UInt8) : UInt8 := b &&& 0xFE

@[simp] theorem clearLow_clearLow (b : UInt8) : clearLow (clearLow b) = clearLow b := by
  rw [clearLow, clearLow, UInt8.and_assoc]
  rfl

/-- The input without the position it claims. -/
def Wire.FrameInput.cleared (i : FrameInput) : FrameInput := { i with input := clearLow i.input }

/-- The integrity value without the position it claims. -/
def Wire.CheckRequest.cleared (c : CheckRequest) : CheckRequest := { c with position := 0 }

namespace Room

/-! ## Seats -/

/-- The seat with the low bits of its inputs cleared. -/
def Seat.cleared (s : Seat) : Seat := { s with inputs := s.inputs.mapValues clearLow }

namespace Seat

variable (s : Seat)

theorem cleared_input (frame : Nat) : s.cleared.input frame = clearLow (s.input frame) := by
  rw [input, cleared, Table.get?_mapValues, input]
  cases s.inputs.get? frame <;> rfl

/-- **What is broadcast** does not depend on low bits. -/
@[simp] theorem cleared_broadcastByte (frame : Nat) :
    s.cleared.broadcastByte frame = s.broadcastByte frame := by
  rw [broadcastByte, broadcastByte, cleared_input]
  exact congrArg (· ||| UInt8.ofNat s.position) (clearLow_clearLow (s.input frame))

theorem cleared_record (i : FrameInput) : (s.record i).cleared = s.cleared.record i.cleared := by
  rw [record, cleared, Table.mapValues_insert]
  rfl

end Seat

/-! ## Rooms -/

/-- The room with the low bits of all stored inputs cleared. -/
def cleared (r : Room) : Room := { r with seats := r.seats.map Seat.cleared }

/-- An outcome, with the low bits of the room cleared. -/
def withCleared {α : Type} (x : α × Room) : α × Room := (x.1, x.2.cleared)

section Room

variable (r : Room) (player : PlayerId)

theorem cleared_notRunningError : r.cleared.notRunningError = r.notRunningError := rfl

theorem cleared_seat? : r.cleared.seat? player = (r.seat? player).map Seat.cleared := by
  rw [seat?, cleared, List.find?_map]
  rfl

theorem cleared_positionOf : r.cleared.positionOf player = r.positionOf player := by
  rw [positionOf, cleared_seat?, Option.map_map]
  rfl

theorem cleared_close : r.cleared.close = r.close.cleared := by
  unfold close
  show (if r.phase = .closed then _ else _) = _
  split <;> rfl

theorem cleared_join : r.cleared.join player = (r.join player).map withCleared := by
  unfold join
  show (if r.phase = .closed then _ else if r.isMember player then _
    else if !r.phase.joinable || r.config.maxPlayers ≤ r.members.length then _ else _) = _
  split
  · rfl
  · split
    · rfl
    · split <;> rfl

/-! ### Readiness -/

theorem cleared_enrol (conn : ConnId) :
    r.cleared.enrol player conn = (r.enrol player conn).cleared := by
  have hseats : (r.enrol player conn).cleared.seats = (r.cleared.enrol player conn).seats := by
    simp only [enrol, cleared_seat?, Option.isSome_map]
    show List.map Seat.cleared (if _ then _ else _) = _
    split
    · rfl
    · exact List.map_append
  have hrest : r.cleared.enrol player conn =
      { (r.enrol player conn).cleared with seats := (r.cleared.enrol player conn).seats } := rfl
  rw [hrest, ← hseats]

/-- Seats go by their positions. -/
theorem map_cleared_insertSeat (s : Seat) (seats : List Seat) :
    (insertSeat s seats).map Seat.cleared = insertSeat s.cleared (seats.map Seat.cleared) := by
  induction seats with
  | nil => rfl
  | cons t rest ih =>
    rw [List.map_cons, insertSeat, insertSeat]
    by_cases h : s.position < t.position
    · have h' : s.cleared.position < t.cleared.position := h
      rw [if_pos h, if_pos h', List.map_cons, List.map_cons]
    · have h' : ¬s.cleared.position < t.cleared.position := h
      rw [if_neg h, if_neg h', List.map_cons, ih]

theorem map_cleared_sortSeats (seats : List Seat) :
    (sortSeats seats).map Seat.cleared = sortSeats (seats.map Seat.cleared) := by
  have hfold : ∀ sorted : List Seat,
      (seats.foldl (fun sorted s => insertSeat s sorted) sorted).map Seat.cleared =
        (seats.map Seat.cleared).foldl (fun sorted s => insertSeat s sorted)
          (sorted.map Seat.cleared) := by
    induction seats with
    | nil => exact fun sorted => rfl
    | cons s rest ih =>
      intro sorted
      rw [List.foldl_cons, List.map_cons, List.foldl_cons, ih, map_cleared_insertSeat]
  exact hfold []

theorem cleared_start (now : Nat) :
    r.cleared.start now = ((r.start now).1, (r.start now).2.cleared) := by
  have hseats : (r.cleared.seats.map fun s => { s with position := r.rankOf s.player }) =
      (r.seats.map fun s => { s with position := r.rankOf s.player }).map Seat.cleared := by
    rw [cleared, List.map_map, List.map_map]
    rfl
  rw [start, start]
  unfold cleared
  simp only [map_cleared_sortSeats]
  rw [← hseats]
  rfl

theorem cleared_becomeReady (conn : ConnId) (now : Nat) :
    r.cleared.becomeReady player conn now = (r.becomeReady player conn now).map withCleared := by
  by_cases hclosed : r.phase = .closed
  · have hclosed' : r.cleared.phase = .closed := hclosed
    rw [becomeReady, becomeReady, if_pos hclosed, if_pos hclosed']
    rfl
  by_cases hmember : r.isMember player = true
  · rw [becomeReady_of_member hclosed hmember,
      becomeReady_of_member (r := r.cleared) hclosed hmember, cleared_enrol]
    by_cases hcomplete : (r.enrol player conn).Complete
    · have hcomplete' : (r.enrol player conn).cleared.Complete := hcomplete
      simp only [if_pos hcomplete, if_pos hcomplete', cleared_start, cleared_positionOf]
      rfl
    · have hcomplete' : ¬(r.enrol player conn).cleared.Complete := hcomplete
      simp only [if_neg hcomplete, if_neg hcomplete', cleared_positionOf]
      rfl
  · have hnot : (!r.isMember player) = true := by
      simpa using hmember
    have hnot' : (!r.cleared.isMember player) = true := hnot
    have hclosed' : r.cleared.phase ≠ .closed := hclosed
    rw [becomeReady, becomeReady, if_neg hclosed, if_pos hnot, if_neg hclosed', if_pos hnot']
    rfl

theorem cleared_rebind (conn : ConnId) :
    r.cleared.rebind player conn = withCleared (r.rebind player conn) := by
  unfold rebind
  show (if r.isReady player then _ else _) = _
  split <;> rfl

/-! ### Inputs, ticks and checks -/

theorem cleared_recordInput (i : FrameInput) :
    r.cleared.recordInput player i.cleared = (r.recordInput player i).map cleared := by
  have hseats : (r.cleared.seats.map fun s => if s.player = player then s.record i.cleared else s) =
      (r.seats.map fun s => if s.player = player then s.record i else s).map Seat.cleared := by
    rw [cleared, List.map_map, List.map_map]
    refine List.map_congr_left fun s _ => ?_
    show (if s.player = player then s.cleared.record i.cleared else s.cleared) =
      (if s.player = player then s.record i else s).cleared
    split
    · exact (s.cleared_record i).symm
    · rfl
  unfold recordInput
  rw [cleared_notRunningError, cleared_seat?, hseats]
  cases r.notRunningError with
  | some e => rfl
  | none =>
    show (if r.config.maxFrames ≤ i.frame.toNat then _ else _) = _
    by_cases hframe : r.config.maxFrames ≤ i.frame.toNat
    · simp only [if_pos hframe]
      rfl
    · simp only [if_neg hframe]
      cases r.seat? player <;> rfl

theorem cleared_frameAt (frame : Nat) : r.cleared.frameAt frame = r.frameAt frame := by
  have hinputs : (r.cleared.seats.map fun s => s.broadcastByte frame) =
      r.seats.map fun s => s.broadcastByte frame := by
    rw [cleared, List.map_map]
    exact List.map_congr_left fun s _ => s.cleared_broadcastByte frame
  rw [frameAt, hinputs]
  rfl

theorem cleared_opened (frame : Nat) : r.cleared.opened frame = (r.opened frame).cleared := by
  rw [opened, opened]
  have hlength : r.cleared.seats.length = r.seats.length := List.length_map _
  rw [hlength]
  split <;> rfl

theorem cleared_advanceFrom (frame : Nat) :
    r.cleared.advanceFrom frame = (r.advanceFrom frame).cleared := by
  simp only [advanceFrom, cleared_opened]
  show (if r.config.maxFrames ≤ frame + 1 then _ else _) = _
  split
  · exact cleared_close { r.opened frame with nextFrame := some (frame + 1) }
  · rfl

theorem cleared_tick : r.cleared.tick = withCleared r.tick := by
  by_cases hrunning : r.phase = .running
  · have hrunning' : r.cleared.phase = .running := hrunning
    cases hnext : r.nextFrame with
    | none =>
      have hnext' : r.cleared.nextFrame = none := hnext
      simp only [tick, hrunning, hrunning', hnext, hnext']
      rfl
    | some frame =>
      have hnext' : r.cleared.nextFrame = some frame := hnext
      by_cases hframe : frame < r.config.maxFrames
      · rw [tick_of_running hrunning hnext hframe, tick_of_running hrunning' hnext' hframe,
          cleared_opened, cleared_frameAt, cleared_advanceFrom]
        rfl
      · have hframe := Nat.le_of_not_lt hframe
        have hframe' : r.cleared.config.maxFrames ≤ frame := hframe
        simp only [tick, hrunning, hrunning', hnext, hnext', if_pos hframe, if_pos hframe',
          cleared_close]
        rfl
  · have hrunning' : r.cleared.phase ≠ .running := hrunning
    rw [tick_of_not_running hrunning, tick_of_not_running hrunning']
    rfl

theorem cleared_submitCheck (c : CheckRequest) :
    r.cleared.submitCheck player c.cleared = (r.submitCheck player c).map withCleared := by
  have hlength : r.cleared.seats.length = r.seats.length := List.length_map _
  unfold submitCheck
  rw [cleared_notRunningError, cleared_positionOf, hlength]
  cases r.notRunningError with
  | some e => rfl
  | none =>
    show (if r.config.maxFrames ≤ c.frame.toNat then _ else _) = _
    by_cases hframe : r.config.maxFrames ≤ c.frame.toNat
    · simp only [if_pos hframe]
      rfl
    · simp only [if_neg hframe]
      cases r.positionOf player with
      | none => rfl
      | some position =>
        show (if (reportValue position c.value ((r.checks.get? c.frame.toNat).getD [])).length <
          r.seats.length then _ else _) = Except.map withCleared (if _ then _ else _)
        split <;> rfl

/-! ### Leaving -/

theorem cleared_withoutEntry :
    r.cleared.withoutEntry player = (r.withoutEntry player).cleared := rfl

theorem cleared_disconnect : r.cleared.disconnect player = withCleared (r.disconnect player) := by
  have hroom : ∀ r : Room, (r.disconnect player).2 = if (r.disconnect player).1.closed then
      (r.withoutEntry player).close else r.withoutEntry player := fun _ => rfl
  have hleft : (r.cleared.disconnect player).1 = (r.disconnect player).1 := rfl
  refine Prod.ext hleft ?_
  show (r.cleared.disconnect player).2 = (r.disconnect player).2.cleared
  rw [hroom, hroom, hleft, cleared_withoutEntry, cleared_close]
  split <;> rfl

end Room

/-! ## Slots -/

namespace Slot

/-- The slot with the low bits of its room cleared. -/
def cleared (s : Slot) : Slot := { s with room := s.room.cleared }

/-- An outcome, with the low bits of the slot cleared. -/
def withCleared {α : Type} (x : α × Slot) : α × Slot := (x.1, x.2.cleared)

section Slot

variable (s : Slot) (player : PlayerId) (conn : ConnId) (now target draw : Nat) (encoder : Encoder)

theorem cleared_room : s.cleared.room = s.room.cleared := rfl

theorem cleared_ticker : s.cleared.ticker = s.ticker := rfl

theorem cleared_ready :
    s.cleared.ready player conn now = (s.ready player conn now).map withCleared := by
  unfold ready
  rw [cleared_room, cleared_becomeReady]
  cases s.room.becomeReady player conn now <;> rfl

theorem cleared_rebind : s.cleared.rebind player conn = withCleared (s.rebind player conn) := by
  have hslot : s.cleared.rebind player conn = ((s.room.cleared.rebind player conn).1,
      { s with room := (s.room.cleared.rebind player conn).2 }) := rfl
  rw [hslot, Room.cleared_rebind]
  rfl

theorem cleared_disconnect : s.cleared.disconnect player = withCleared (s.disconnect player) := by
  have hslot : ∀ s : Slot, s.disconnect player = ((s.room.disconnect player).1,
      if (s.room.disconnect player).1.closed then
        Slot.stop { s with room := (s.room.disconnect player).2 }
      else { s with room := (s.room.disconnect player).2 }) := fun _ => rfl
  rw [hslot, hslot, show s.cleared.room.disconnect player = _ from s.room.cleared_disconnect player]
  unfold Room.withCleared withCleared
  simp only
  split <;> rfl

theorem cleared_close : s.cleared.close = s.close.cleared := by
  show Slot.stop { s with room := s.room.cleared.close } = _
  rw [Room.cleared_close]
  rfl

theorem cleared_spawnTicker :
    s.cleared.spawnTicker now draw = withCleared (s.spawnTicker now draw) := by
  unfold spawnTicker
  show (if s.tickerStarted then _ else _) = _
  split <;> rfl

/-- **A ticker sends the same** from the cleared room. -/
theorem cleared_runSchedule (schedule : Schedule) :
    s.cleared.runSchedule encoder schedule now target =
      withCleared (s.runSchedule encoder schedule now target) := by
  fun_induction runSchedule encoder s schedule now target with
  | case1 s schedule now hdue fired ticked s₁ hnone =>
    have htick : s.cleared.room.tick = Room.withCleared s.room.tick := s.room.cleared_tick
    have hnone' : (Room.withCleared s.room.tick).1 = none := hnone
    rw [runSchedule, dif_pos hdue]
    simp only [htick, hnone']
    rfl
  | case2 s schedule now hdue fired ticked s₁ out hout firing s₂ hlast =>
    have htick : s.cleared.room.tick = Room.withCleared s.room.tick := s.room.cleared_tick
    have hout' : (Room.withCleared s.room.tick).1 = some out := hout
    rw [runSchedule, dif_pos hdue]
    simp only [htick, hout', if_pos hlast]
    rfl
  | case3 s schedule now hdue fired ticked s₁ out hout firing s₂ hlast later ih =>
    have htick : s.cleared.room.tick = Room.withCleared s.room.tick := s.room.cleared_tick
    have hout' : (Room.withCleared s.room.tick).1 = some out := hout
    rw [runSchedule, dif_pos hdue]
    simp only [htick, hout', if_neg hlast]
    -- the rest is that of the cleared slot after this tick
    exact congrArg (fun x : List Firing × Slot => (firing :: x.1, x.2)) ih
  | case4 s schedule now hwaits =>
    rw [runSchedule, dif_neg hwaits]
    rfl

theorem cleared_runTicker :
    s.cleared.runTicker encoder now target = withCleared (s.runTicker encoder now target) := by
  unfold runTicker
  rw [cleared_ticker]
  cases s.ticker with
  | none => rfl
  | some schedule => exact s.cleared_runSchedule now target encoder schedule

end Slot

end Slot

end Room

end FrameSync
