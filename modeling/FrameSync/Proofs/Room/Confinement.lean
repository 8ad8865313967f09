import FrameSync.Proofs.Room.Verdicts

/-!
# What one player can touch in a room

An input and an integrity value are taken for the player that sends them. `InputTouches` and
`ReportTouches` say how little of a room either can change: the sender's own seat at the frame that
is named and its own bit in the mask of that frame; or the values that wait for that frame.
Everything else is named as unchanged, field by field.

The mask of a frame has one byte for all seats, and the waiting values have one list. That what
belongs to the others survives there rests on the positions: during the battle no two players have
one (`positionOf_inj`), and all of them are below 8, so no two bits fall together (`testBit_bit`).
-/

set_option autoImplicit false

namespace FrameSync.Room

open Wire

variable {r r' : Room} {player q : PlayerId} {frame : Nat}

/-! ## Inputs -/

/-- What an input of a player for a frame may change in a room: nothing but seats and masks. The
seats are of the same players in the same order; those of the others are as they were, and that of
the player keeps its position and its inputs for all other frames. The masks of the other frames are
as they were, and a bit that changes in the mask of the frame is that of the player's position,
during the battle. -/
structure InputTouches (r : Room) (player : PlayerId) (frame : Nat) (r' : Room) : Prop where
  rest : r' = { r with seats := r'.seats, masks := r'.masks }
  players : r'.seats.map Seat.player = r.seats.map Seat.player
  others : ∀ q, q ≠ player → r'.seat? q = r.seat? q
  own : ∀ seat, r.seat? player = some seat → ∃ seat', r'.seat? player = some seat' ∧
    seat'.position = seat.position ∧ ∀ f, f ≠ frame → seat'.inputs.get? f = seat.inputs.get? f
  masks : ∀ f, f ≠ frame → r'.masks.get? f = r.masks.get? f
  bits : ∀ bit, (r'.mask frame).toNat.testBit bit ≠ (r.mask frame).toNat.testBit bit →
    r.phase = .running ∧ r.positionOf player = some bit

theorem InputTouches.refl (r : Room) (player : PlayerId) (frame : Nat) :
    InputTouches r player frame r where
  rest := rfl
  players := rfl
  others _ _ := rfl
  own seat hseat := ⟨seat, hseat, rfl, fun _ _ => rfl⟩
  masks _ _ := rfl
  bits _ hbit := absurd rfl hbit

/-- The seat of a player after an input of another one, or of its own. -/
theorem seat?_of_recordInput {i : FrameInput} (hrecord : r.recordInput player i = .ok r')
    (p : PlayerId) :
    r'.seat? p = (r.seat? p).map fun s => if p = player then s.record i else s := by
  obtain ⟨-, -, seat, -, rfl⟩ := recordInput_eq_ok hrecord
  refine (Follows.seat?_record r player p i).trans ?_
  cases hp : r.seat? p with
  | none => rfl
  | some s =>
    have hplayer : s.player = p := (seat?_eq_some hp).2
    simp only [Option.map_some, hplayer]

theorem inputTouches_recordInput (hr : WellFormed r) {i : FrameInput}
    (hrecord : r.recordInput player i = .ok r') : InputTouches r player i.frame.toNat r' := by
  have hseats := seat?_of_recordInput hrecord
  obtain ⟨hrunning, -, seat, hseat, rfl⟩ := recordInput_eq_ok hrecord
  refine ⟨rfl, map_record_seats Seat.player (fun _ _ => rfl) r.seats player i, fun q hq => ?_,
    fun own hown => ?_, fun f hf => Table.get?_insert_of_ne _ _ hf.symm, fun bit hbit => ?_⟩
  · simp only [hseats q, if_neg hq, Option.map_id']
  · refine ⟨own.record i, ?_, rfl, fun f hf => ?_⟩
    · rw [hseats player, hown, Option.map_some, if_pos rfl]
    · rw [Seat.record_inputs, Table.get?_insert_of_ne _ _ hf.symm]
  · refine ⟨hrunning, ?_⟩
    rw [positionOf, hseat, Option.map_some, Option.some.injEq]
    -- the bit is set by the seat's own, which is a bit of the byte
    have hposition := hr.position_lt (hr.nextFrame_ne_none hrunning) (seat?_eq_some hseat).1
    by_contra hother
    apply hbit
    show ((r.masks.insert _ _).get? i.frame.toNat |>.getD 0).toNat.testBit bit = _
    rw [Table.get?_insert_self, Option.getD_some, testBit_or,
      testBit_bit (hr.places_lt hposition), decide_eq_false hother, Bool.or_false]

/-- **An input**, recorded or not, touches what is its sender's alone. -/
theorem inputTouches_apply (hr : WellFormed r) (player : PlayerId) (i : FrameInput) :
    InputTouches r player i.frame.toNat (r.apply (.input player i)).2 := by
  rw [apply]
  cases hrecord : r.recordInput player i with
  | error e => exact .refl r player _
  | ok r' => exact inputTouches_recordInput hr hrecord

/-! ## Reports -/

/-- What an integrity value of a player for a frame may change in a room, where `answer` is what the
report is answered: nothing but waiting values, and none of those for other frames. A value that
changes is that at the player's position, during the battle, unless there is a verdict; with a
verdict all values for the frame go. -/
structure ReportTouches (r : Room) (player : PlayerId) (frame : Nat) (answer : Answer) (r' : Room) :
    Prop where
  rest : r' = { r with checks := r'.checks }
  frames : ∀ f, f ≠ frame → r'.checks.get? f = r.checks.get? f
  values : ∀ i, (r'.waiting frame).lookup i ≠ (r.waiting frame).lookup i →
    (r.phase = .running ∧ r.positionOf player = some i) ∨
      ∃ verdict, answer = .checked (some verdict)
  settled : ∀ verdict, answer = .checked (some verdict) → r'.checks.get? frame = none

theorem reportTouches_submitCheck {c : CheckRequest} {verdict : Option Verdict}
    (hcheck : r.submitCheck player c = .ok (verdict, r')) :
    ReportTouches r player c.frame.toNat (.checked verdict) r' := by
  obtain ⟨hrunning, -, position, hposition, ⟨-, rfl, rfl⟩ | ⟨-, rfl, rfl⟩⟩ :=
    submitCheck_eq_ok hcheck
  · -- the values are one more, or one of them is replaced
    refine ⟨rfl, fun f hf => Table.get?_insert_of_ne _ _ hf.symm, fun i hi => Or.inl ⟨hrunning, ?_⟩,
      by simp⟩
    rw [hposition, Option.some.injEq]
    by_contra hother
    apply hi
    show (((r.checks.insert _ _).get? c.frame.toNat).getD []).lookup i = _
    rw [Table.get?_insert_self, Option.getD_some, lookup_reportValue, if_neg (Ne.symm hother)]
    rfl
  · exact ⟨rfl, fun f hf => Table.get?_erase_of_ne _ hf.symm, fun i _ => Or.inr ⟨_, rfl⟩,
      fun _ _ => Table.get?_erase_self _ _⟩

/-- **A report**, taken or not, touches the values of its frame alone. -/
theorem reportTouches_apply (r : Room) (player : PlayerId) (c : CheckRequest) :
    ReportTouches r player c.frame.toNat (r.apply (.check player c)).1
      (r.apply (.check player c)).2 := by
  rw [apply]
  cases hcheck : r.submitCheck player c with
  | error e => exact ⟨rfl, fun _ _ => rfl, fun i hi => absurd rfl hi, by simp⟩
  | ok taken => exact reportTouches_submitCheck hcheck

/-- A report that is answered with a verdict, or with none yet, has been taken. -/
theorem submitCheck_of_answer {c : CheckRequest} {verdict : Option Verdict}
    (h : (r.apply (.check player c)).1 = .checked verdict) :
    r.submitCheck player c = .ok (verdict, (r.apply (.check player c)).2) := by
  rw [apply] at h ⊢
  cases hcheck : r.submitCheck player c with
  | error e =>
    rw [hcheck] at h
    cases h
  | ok taken =>
    rw [hcheck] at h
    cases h
    rfl

/-- A verdict is for the members. -/
theorem members_of_verdict {c : CheckRequest} {verdict : Verdict}
    (h : r.submitCheck player c = .ok (some verdict, r')) : verdict.members = r.members := by
  obtain ⟨-, -, position, -, ⟨-, hnone, -⟩ | ⟨-, hverdict, -⟩⟩ := submitCheck_eq_ok h
  · cases hnone
  · cases hverdict
    rfl

/-! ## The others -/

/-- All that a player has in a room is as it was: its seat, with its position, its inputs and its
last frame, the bits at its position, who is ready and on which connection, and who is a member. -/
structure Spared (q : PlayerId) (r r' : Room) : Prop where
  seat : r'.seat? q = r.seat? q
  bits : ∀ f position, r.positionOf q = some position →
    (r'.mask f).toNat.testBit position = (r.mask f).toNat.testBit position
  ready : r'.ready = r.ready
  members : r'.members = r.members

theorem Spared.refl (q : PlayerId) (r : Room) : Spared q r r := ⟨rfl, fun _ _ _ => rfl, rfl, rfl⟩

/-- **An input spares the other players.** -/
theorem InputTouches.spared (h : InputTouches r player frame r') (hr : WellFormed r)
    (hq : q ≠ player) : Spared q r r' := by
  refine ⟨h.others q hq, fun f position hposition => ?_, ?_, ?_⟩
  · by_cases hf : f = frame
    · by_contra hbit
      obtain ⟨hrunning, hown⟩ := h.bits position (hf ▸ hbit)
      exact hq ((positionOf_inj hr (hr.nextFrame_ne_none hrunning) hown).mp hposition)
    · rw [mask, h.masks f hf, mask]
  · rw [h.rest]
  · rw [h.rest]

theorem ReportTouches.spared {answer : Answer} (h : ReportTouches r player frame answer r')
    (q : PlayerId) : Spared q r r' := by
  rw [h.rest]
  exact ⟨rfl, fun _ _ _ => rfl, rfl, rfl⟩

/-- **What another player has reported** stays, or goes with a verdict. -/
theorem ReportTouches.lookup_of_ne {answer : Answer} (h : ReportTouches r player frame answer r')
    (hr : WellFormed r) (hq : q ≠ player) {f position : Nat}
    (hposition : r.positionOf q = some position) :
    (r'.waiting f).lookup position = (r.waiting f).lookup position ∨
      f = frame ∧ ∃ verdict, answer = .checked (some verdict) := by
  by_cases hf : f = frame
  · subst hf
    refine Classical.or_iff_not_imp_left.mpr fun hvalue => ⟨rfl, ?_⟩
    rcases h.values position hvalue with ⟨hrunning, hown⟩ | hverdict
    · exact absurd ((positionOf_inj hr (hr.nextFrame_ne_none hrunning) hown).mp hposition) hq
    · exact hverdict
  · rw [waiting, waiting, h.frames f hf]
    exact Or.inl rfl

end FrameSync.Room
