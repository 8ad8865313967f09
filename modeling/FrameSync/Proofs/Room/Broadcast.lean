import FrameSync.Proofs.Room.History

/-!
# What is broadcast is what was recorded

A history of a room says which inputs were recorded (`lastInput`) and which frames were broadcast
(`outputs`), without looking into the room. `Follows` ties the two to the room the history leads to:
the frames have been numbered upward from zero, a seat holds the last input recorded for each frame,
and the mask of a frame reports the seats that hold one. Every operation keeps it, in whatever order
players become ready, resend, come late or leave.

`broadcast_refines_history` reads the broadcasts off the history: the `k`-th frame carries, for each
member in order, the last input the member recorded for frame `k` before it, with the low bit making
room for the rank. No later operation touches frame `k` again.
-/

set_option autoImplicit false

namespace FrameSync.Room

open Wire

/-! ## Reading a history -/

/-- The operations of a history with their answers. -/
def history (r : Room) (ops : List Op) : List (Op × Answer) := ops.zip (run r ops).1

/-- The frame that an answer carries. -/
def Answer.output? : Answer → Option TickOutput
  | .ticked output => output
  | _ => none

/-- The frames that were broadcast, in order. -/
def outputs (h : List (Op × Answer)) : List TickOutput := h.filterMap fun e => e.2.output?

/-- The input that an operation recorded for a frame of a player. -/
def recordedInput (player : PlayerId) (frame : Nat) : Op × Answer → Option UInt8
  | (.input p i, .recorded) =>
    if p = player ∧ i.frame.toNat = frame then some i.input else none
  | _ => none

/-- The input that a player last recorded for a frame. -/
def lastInput (player : PlayerId) (frame : Nat) (h : List (Op × Answer)) : Option UInt8 :=
  (h.filterMap (recordedInput player frame)).getLast?

theorem history_append (r : Room) (before after : List Op) :
    history r (before ++ after) = history r before ++ history (run r before).2 after := by
  rw [history, run_append, List.zip_append (length_run r before).symm]
  rfl

theorem history_cons (r : Room) (op : Op) (ops : List Op) :
    history r (op :: ops) = (op, (r.apply op).1) :: history (r.apply op).2 ops := rfl

theorem outputs_append (g h : List (Op × Answer)) : outputs (g ++ h) = outputs g ++ outputs h :=
  List.filterMap_append

/-- **The last input after one more operation** is what that recorded, or else the one before. -/
theorem lastInput_snoc (player : PlayerId) (frame : Nat) (h : List (Op × Answer))
    (e : Op × Answer) :
    lastInput player frame (h ++ [e]) =
      (recordedInput player frame e).or (lastInput player frame h) := by
  rw [lastInput, List.filterMap_append]
  cases hrecorded : recordedInput player frame e with
  | none => simp [hrecorded, lastInput]
  | some input => simp [hrecorded]

/-! ## The room follows the history -/

/-- What a room has to do with the history that led to it. The frames broadcast so far are those
before the next one, in order, and the room has all of them. A seat holds what its player last
recorded. Before the battle nothing has been recorded or reported; during it a mask reports the
seats that hold an input, that of frame 0 only until the frame is broadcast. -/
structure Follows (h : List (Op × Answer)) (r : Room) : Prop where
  numbered : (outputs h).map (fun o => o.broadcast.frame) =
    (List.range (r.nextFrame.getD 0)).map UInt32.ofNat
  numbered_le : r.nextFrame.getD 0 ≤ r.config.maxFrames
  inputs : ∀ player frame,
    lastInput player frame h = (r.seat? player).bind fun s => s.inputs.get? frame
  unused : r.nextFrame = none →
    (∀ frame, r.mask frame = 0) ∧ ∀ s ∈ r.seats, ∀ frame, s.inputs.get? frame = none
  reported : ∀ next, r.nextFrame = some next → ∀ frame, frame ≠ 0 ∨ next = 0 →
    ∀ s ∈ r.seats, (r.mask frame).toNat.testBit s.position = (s.inputs.get? frame).isSome

namespace Follows

variable {h : List (Op × Answer)} {r r' : Room} {op : Op} {answer : Answer}

theorem length_outputs (hf : Follows h r) : (outputs h).length = r.nextFrame.getD 0 := by
  have := congrArg List.length hf.numbered
  simpa using this

theorem new (id : RoomId) (c : BattleConfig) : Follows [] (new id c) where
  numbered := rfl
  numbered_le := Nat.zero_le _
  inputs := fun _ _ => rfl
  unused := fun _ => ⟨fun _ => rfl, fun s hs => absurd hs List.not_mem_nil⟩
  reported := fun next hnext => by cases hnext

/-- An operation that leaves seats, masks and the next frame alone, and that neither records nor
broadcasts, keeps the relation. -/
theorem of_eq (hf : Follows h r) (hseats : r'.seats = r.seats) (hmasks : r'.masks = r.masks)
    (hnext : r'.nextFrame = r.nextFrame) (hconfig : r'.config = r.config)
    (hout : answer.output? = none) (hin : ∀ p f, recordedInput p f (op, answer) = none) :
    Follows (h ++ [(op, answer)]) r' where
  numbered := by
    rw [outputs_append, hnext, ← hf.numbered]
    simp [outputs, hout]
  numbered_le := by rw [hnext, hconfig]; exact hf.numbered_le
  inputs := fun p f => by
    rw [lastInput_snoc, hin, Option.none_or, hf.inputs, seat?, seat?, hseats]
  unused := fun hnone => by
    rw [hnext] at hnone
    simpa only [mask, hmasks, hseats] using hf.unused hnone
  reported := fun next hsome => by
    rw [hnext] at hsome
    simpa only [mask, hmasks, hseats] using hf.reported next hsome

/-- Seats without inputs look up nothing. -/
theorem bind_inputs_eq_none (hnone : ∀ s ∈ r.seats, ∀ frame, s.inputs.get? frame = none)
    (p : PlayerId) (f : Nat) : ((r.seat? p).bind fun s => s.inputs.get? f) = none := by
  cases hseat : r.seat? p with
  | none => rfl
  | some s => exact hnone s (seat?_eq_some hseat).1 f

/-- Before the battle an enrolment adds no input. -/
theorem enrol_unused (player : PlayerId) (conn : ConnId)
    (hnone : ∀ s ∈ r.seats, ∀ frame, s.inputs.get? frame = none) :
    ∀ s ∈ (r.enrol player conn).seats, ∀ frame, s.inputs.get? frame = none := by
  intro s hs frame
  rw [enrol] at hs
  by_cases hseat : (r.seat? player).isSome = true
  · rw [if_pos hseat] at hs
    exact hnone s hs frame
  · rw [if_neg hseat] at hs
    rcases List.mem_append.mp hs with hs | hs
    · exact hnone s hs frame
    · rw [List.mem_singleton.mp hs]
      rfl

theorem enrolled (hf : Follows h r) (hr : WellFormed r) {player : PlayerId} {conn : ConnId}
    {now : Nat} {outcome : Readied} (hmember : player ∈ r.members) :
    Follows (h ++ [(.ready player conn now, .readied outcome)]) (r.enrol player conn) := by
  by_cases hstarted : r.nextFrame = none
  · -- a new seat may be added, but before the battle no seat holds an input
    obtain ⟨hmasks, hinputs⟩ := hf.unused hstarted
    have hinputs' := enrol_unused player conn hinputs
    have hquiet : Follows (h ++ [(.ready player conn now, .readied outcome)]) r :=
      hf.of_eq rfl rfl rfl rfl rfl fun _ _ => rfl
    refine { hquiet with
      inputs := fun p f => ?_
      unused := fun _ => ⟨hmasks, hinputs'⟩
      reported := fun next hnext => ?_ }
    · rw [hquiet.inputs, bind_inputs_eq_none hinputs, bind_inputs_eq_none hinputs']
    · exact absurd (hstarted.symm.trans hnext) (Option.some_ne_none next).symm
  · -- a member that comes back during the battle has its seat
    have hseats : (r.enrol player conn).seats = r.seats := by
      refine if_pos (seat?_isSome_iff.mpr ?_)
      rw [(hr.seats_ordered hstarted).1]
      exact hmember
    exact hf.of_eq hseats rfl rfl rfl rfl fun _ _ => rfl

theorem started (hf : Follows h r) (hr : WellFormed r) {player : PlayerId} {conn : ConnId}
    {now : Nat} {outcome : Readied} (hmember : player ∈ r.members)
    (hcomplete : (r.enrol player conn).Complete) :
    Follows (h ++ [(.ready player conn now, .readied outcome)])
      ((r.enrol player conn).start now).2 := by
  have hunstarted : (r.enrol player conn).nextFrame = none := hr.not_started (Or.inr hcomplete.1)
  have henrolled : Follows (h ++ [(.ready player conn now, .readied outcome)])
    (r.enrol player conn) := hf.enrolled hr hmember
  obtain ⟨hmasks, hinputs⟩ := henrolled.unused hunstarted
  -- the start gives seats other positions and another order, but no inputs
  have hinputs' : ∀ s ∈ ((r.enrol player conn).start now).2.seats, ∀ frame,
      s.inputs.get? frame = none := by
    intro s hs frame
    obtain ⟨t, ht, rfl⟩ := mem_startSeats.mp hs
    exact hinputs t ht frame
  refine ⟨?_, Nat.zero_le _, fun p f => ?_,
    fun hnone => absurd hnone (Option.some_ne_none 0), ?_⟩
  · rw [henrolled.numbered, hunstarted]
    rfl
  · rw [henrolled.inputs, bind_inputs_eq_none hinputs, bind_inputs_eq_none hinputs']
  · intro next _ frame _ s hs
    rw [hinputs' s hs frame, show ((r.enrol player conn).start now).2.mask frame = 0 from
      hmasks frame]
    exact Nat.zero_testBit _

/-- The seat of a player after something was recorded in one of the seats. -/
theorem seat?_record (r : Room) (player p : PlayerId) (i : FrameInput) :
    (r.seats.map fun s => if s.player = player then s.record i else s).find?
        (fun s => s.player = p) =
      (r.seat? p).map fun s => if s.player = player then s.record i else s := by
  rw [List.find?_map, seat?]
  congr 2
  funext s
  simp only [Function.comp_apply]
  split <;> rfl

/-- What the seats hold after a recording is what was last recorded. -/
theorem lastInput_record (hf : Follows h r) {player : PlayerId} {seat : Seat}
    (hseat : r.seat? player = some seat) (i : FrameInput) (p : PlayerId) (f : Nat) :
    lastInput p f (h ++ [(.input player i, .recorded)]) =
      ((r.seats.map fun s => if s.player = player then s.record i else s).find?
        (fun s => s.player = p)).bind fun s => s.inputs.get? f := by
  rw [lastInput_snoc, hf.inputs p f, seat?_record, recordedInput]
  by_cases hp : player = p
  · -- the recording player: the frame of the input has a new one, the others are as before
    subst hp
    rw [hseat, Option.map_some, Option.bind_some, Option.bind_some,
      if_pos (seat?_eq_some hseat).2, Seat.record_inputs, Table.get?_insert]
    by_cases hframe : i.frame.toNat = f
    · rw [if_pos ⟨rfl, hframe⟩, if_pos (congrArg Key.code hframe), Option.some_or]
    · rw [if_neg fun e => hframe e.2, if_neg fun e => hframe (Key.code_inj _ _ e),
        Option.none_or]
  · -- another player: its seat is not touched
    rw [if_neg fun e => hp e.1, Option.none_or]
    cases hother : r.seat? p with
    | none => rfl
    | some s =>
      have hne : s.player ≠ player := by
        intro e
        exact hp (e.symm.trans (seat?_eq_some hother).2)
      rw [Option.map_some, if_neg hne]

/-- The masks after a recording report the seats that hold an input, if those before it did. -/
theorem testBit_record (hr : WellFormed r) (hstarted : r.nextFrame ≠ none) {seat t : Seat}
    (hseat : seat ∈ r.seats) (ht : t ∈ r.seats) (i : FrameInput) {frame : Nat}
    (hold : (r.mask frame).toNat.testBit t.position = (t.inputs.get? frame).isSome) :
    (((r.masks.insert i.frame.toNat (r.mask i.frame.toNat ||| seat.bit)).get? frame).getD
        0).toNat.testBit t.position =
      ((if t.player = seat.player then t.record i else t).inputs.get? frame).isSome := by
  have hpositions : (r.seats.map Seat.position).Nodup := by
    rw [(hr.seats_ordered hstarted).2]
    exact List.nodup_range
  rw [Table.get?_insert]
  by_cases hsame : i.frame.toNat = frame
  · -- the bit that is set is that of the recording seat, and no other seat has its position
    subst hsame
    have hlt := hr.places_lt (hr.position_lt hstarted hseat)
    rw [if_pos rfl, Option.getD_some, testBit_or, testBit_bit hlt]
    by_cases hplayer : t.player = seat.player
    · have htseat : t = seat := List.inj_on_of_nodup_map hr.seats_nodup ht hseat hplayer
      rw [if_pos hplayer, Seat.record_inputs, Table.get?_insert_self, htseat]
      simp
    · have hne : seat.position ≠ t.position := by
        intro e
        have htseat : t = seat := List.inj_on_of_nodup_map hpositions ht hseat e.symm
        exact hplayer (congrArg Seat.player htseat)
      rw [if_neg hplayer, decide_eq_false hne, Bool.or_false]
      exact hold
  · -- neither the mask nor the inputs of another frame change
    rw [if_neg fun e => hsame (Key.code_inj _ _ e)]
    split
    · rw [Seat.record_inputs, Table.get?_insert_of_ne _ _ hsame]
      exact hold
    · exact hold

theorem recorded (hf : Follows h r) (hr : WellFormed r) {player : PlayerId} {i : FrameInput}
    {seat : Seat} (hrunning : r.phase = .running) (hseat : r.seat? player = some seat) :
    Follows (h ++ [(.input player i, .recorded)])
      { r with
        seats := r.seats.map fun s => if s.player = player then s.record i else s
        masks := r.masks.insert i.frame.toNat (r.mask i.frame.toNat ||| seat.bit) } := by
  have hstarted := hr.nextFrame_ne_none hrunning
  obtain ⟨hmem, hplayer⟩ := seat?_eq_some hseat
  refine ⟨?_, hf.numbered_le, hf.lastInput_record hseat i, ?_, ?_⟩
  · rw [outputs_append, show outputs [(.input player i, .recorded)] = [] from rfl,
      List.append_nil]
    exact hf.numbered
  · intro hnone
    exact absurd hnone hstarted
  · intro next hnext frame hframe s hs
    obtain ⟨t, ht, rfl⟩ := List.mem_map.mp hs
    have hold := hf.reported next hnext frame hframe t ht
    have hposition : (if t.player = player then t.record i else t).position = t.position := by
      split <;> rfl
    rw [hposition, ← hplayer]
    exact testBit_record hr hstarted hmem ht i hold

theorem ticked (hf : Follows h r) {frame : Nat} {recipients : List ConnId} {last : Bool}
    (hnext : r.nextFrame = some frame) (hframe : frame < r.config.maxFrames) :
    Follows (h ++ [(.tick,
        .ticked (some ⟨(r.opened frame).frameAt frame, recipients, last⟩))])
      (r.advanceFrom frame) where
  numbered := by
    have hnumbered := hf.numbered
    rw [hnext, Option.getD_some] at hnumbered
    rw [advanceFrom_nextFrame, Option.getD_some, List.range_succ, List.map_append, ← hnumbered,
      outputs_append, List.map_append]
    rfl
  numbered_le := by
    rw [advanceFrom_nextFrame, advanceFrom_config]
    exact hframe
  inputs := fun p f => by
    rw [lastInput_snoc, hf.inputs, seat?, seat?, advanceFrom_seats]
    rfl
  unused := fun hnone => by
    rw [advanceFrom_nextFrame] at hnone
    cases hnone
  reported := fun next hsome f hf' s hs => by
    rw [advanceFrom_nextFrame, Option.some.injEq] at hsome
    -- the mask that the tick has filled in is that of frame 0
    have hne : f ≠ 0 := hf'.resolve_right (by omega)
    rw [advanceFrom_seats] at hs
    rw [mask, advanceFrom_masks]
    show ((r.opened frame).mask f).toNat.testBit s.position = _
    rw [opened_mask r hne]
    exact hf.reported frame hnext f (Or.inl hne) s hs

/-- **Every operation keeps the room following its history.** -/
theorem change (hf : Follows h r) (hr : WellFormed r) (hchange : Change r op answer r') :
    Follows (h ++ [(op, answer)]) r' := by
  cases hchange with
  | refused op error =>
    refine hf.of_eq rfl rfl rfl rfl rfl fun p f => ?_
    cases op <;> rfl
  | enrolled player conn now outcome hopen hmember => exact hf.enrolled hr hmember
  | started player conn now outcome hmember hcomplete => exact hf.started hr hmember hcomplete
  | recorded player i seat hrunning hframe hseat => exact hf.recorded hr hrunning hseat
  | ticked frame hrunning hnext hframe => exact hf.ticked hnext hframe
  | leftLast player =>
    exact hf.of_eq (close_seats _) (close_masks _) (close_nextFrame _) (close_config _) rfl
      fun _ _ => rfl
  | closed =>
    exact hf.of_eq (close_seats r) (close_masks r) (close_nextFrame r) (close_config r) rfl
      fun _ _ => rfl
  | _ => exact hf.of_eq rfl rfl rfl rfl rfl fun _ _ => rfl

/-- **A room follows its whole history.** -/
theorem run (hf : Follows h r) (hr : WellFormed r) (ops : List Op) :
    Follows (h ++ history r ops) (Room.run r ops).2 := by
  induction ops generalizing h r with
  | nil => simpa [history, Room.run] using hf
  | cons op rest ih =>
    have hstep := hf.change hr (change_apply hr op)
    have hrest := ih hstep (wellFormed_apply hr op)
    rwa [List.append_assoc, List.singleton_append] at hrest

/-- **Frames are numbered by their place among the broadcasts**, if a frame number can hold them. -/
theorem frame_toNat (hf : Follows h r) (hframes : r.config.maxFrames ≤ UInt32.size) {k : Nat}
    {out : TickOutput} (hout : (outputs h)[k]? = some out) : out.broadcast.frame.toNat = k := by
  have hnumbered : ((outputs h).map fun o => o.broadcast.frame)[k]? = some out.broadcast.frame := by
    rw [List.getElem?_map, hout, Option.map_some]
  rw [hf.numbered, List.getElem?_map] at hnumbered
  obtain ⟨j, hj, heq⟩ := Option.map_eq_some_iff.mp hnumbered
  obtain ⟨hlt, rfl⟩ := List.getElem?_eq_some_iff.mp hj
  rw [List.length_range] at hlt
  have hle := hf.numbered_le
  rw [← heq, List.getElem_range, UInt32.toNat_ofNat']
  exact Nat.mod_eq_of_lt (Nat.lt_of_lt_of_le (Nat.lt_of_lt_of_le hlt hle) hframes)

/-- A seat holds what its player last recorded. -/
theorem lastInput_eq (hf : Follows h r) (hr : WellFormed r) {s : Seat} (hs : s ∈ r.seats)
    (frame : Nat) : lastInput s.player frame h = s.inputs.get? frame := by
  rw [hf.inputs, seat?_of_mem hr.seats_nodup hs, Option.bind_some]

/-- **The bytes of a frame** are, for the member of each rank, the last input it recorded for the
frame with the low bit making room for the rank. -/
theorem inputs_frameAt (hf : Follows h r) (hr : WellFormed r) (hstarted : r.nextFrame ≠ none)
    (frame : Nat) : ((r.opened frame).frameAt frame).inputs =
      r.members.mapIdx fun i p =>
        ((lastInput p frame h).getD 0 &&& 0xFE) ||| UInt8.ofNat i := by
  have hplayers := (hr.seats_ordered hstarted).1
  refine List.ext_getElem? fun i => ?_
  rw [List.getElem?_mapIdx, ← hplayers, List.getElem?_map]
  show ((r.opened frame).seats.map _)[i]? = _
  rw [opened_seats, List.getElem?_map]
  cases hs : r.seats[i]? with
  | none => rfl
  | some s =>
    have hposition := (hr.seat_at hstarted hs).1
    rw [Option.map_some, Option.map_some, Option.map_some, Seat.broadcastByte, Seat.input,
      hf.lastInput_eq hr (List.mem_of_getElem? hs), hposition]

/-- **The mask of the next frame** reports the members that recorded an input for it, and every
member if it is the first frame. -/
theorem mask_frameAt (hf : Follows h r) (hr : WellFormed r) {frame i : Nat} {p : PlayerId}
    (hnext : r.nextFrame = some frame) (hp : r.members[i]? = some p) :
    ((r.opened frame).frameAt frame).inputMask.toNat.testBit i = true ↔
      frame = 0 ∨ (lastInput p frame h).isSome = true := by
  have hstarted : r.nextFrame ≠ none := by rw [hnext]; exact Option.some_ne_none frame
  have hplayers := (hr.seats_ordered hstarted).1
  show ((r.opened frame).mask frame).toNat.testBit i = true ↔ _
  by_cases hzero : frame = 0
  · subst hzero
    have hfull : (r.opened 0).mask 0 = fullMask r.seats.length := by
      rw [opened, if_pos rfl, mask, Table.get?_insert_self, Option.getD_some]
    have hi : i < r.seats.length := by
      rw [← List.length_map, hplayers]
      exact (List.getElem?_eq_some_iff.mp hp).1
    rw [hfull, testBit_fullMask (by rw [hr.length_seats hstarted]; exact hr.places_le)]
    exact iff_of_true (decide_eq_true hi) (Or.inl rfl)
  · rw [← hplayers, List.getElem?_map] at hp
    obtain ⟨s, hs, rfl⟩ := Option.map_eq_some_iff.mp hp
    have hmem := List.mem_of_getElem? hs
    have hreported := hf.reported frame hnext frame (Or.inl hzero) s hmem
    rw [(hr.seat_at hstarted hs).1] at hreported
    rw [opened_mask r hzero, hreported, hf.lastInput_eq hr hmem, or_iff_right hzero]

end Follows

/-! ## The broadcasts of a history -/

/-- A tick that answers a frame is one of a running room, and the frame is the next one. -/
theorem apply_tick_eq_some {r : Room} (hr : WellFormed r) {out : TickOutput}
    (hout : (r.apply .tick).1 = .ticked (some out)) :
    r.phase = .running ∧ ∃ frame, r.nextFrame = some frame ∧
      out = ⟨(r.opened frame).frameAt frame, r.recipients,
        decide (r.config.maxFrames ≤ frame + 1)⟩ := by
  have htick : r.tick.1 = some out := by
    have happly : (r.apply .tick).1 = .ticked r.tick.1 := rfl
    rw [happly] at hout
    exact Answer.ticked.inj hout
  by_cases hrunning : r.phase = .running
  · obtain ⟨frame, hnext, hframe⟩ := hr.in_range hrunning
    rw [tick_of_running hrunning hnext hframe] at htick
    exact ⟨hrunning, frame, hnext, (Option.some.inj htick).symm⟩
  · rw [tick_of_not_running hrunning] at htick
    cases htick

/-- **What is broadcast is what was recorded.** Let a tick answer a frame after some operations on a
new room, as the `k`-th tick that does. The frame has number `k`. It has one byte for each member,
in order: the last input that the member recorded for frame `k` before that tick, or zero, with the
low bit making room for the rank. The mask reports the members that recorded one, and every member
in frame 0. Whatever happens afterwards, this stays what was broadcast as frame `k`, and no other
broadcast has that number. -/
theorem broadcast_refines_history (id : RoomId) (c : BattleConfig)
    (hframes : c.maxFrames ≤ UInt32.size) (before : List Op) (out : TickOutput)
    (hout : ((run (new id c) before).2.apply .tick).1 = .ticked (some out)) :
    let h := history (new id c) before
    let members := (run (new id c) before).2.members
    let k := (outputs h).length
    out.broadcast.frame.toNat = k ∧
      out.broadcast.memberCount.toNat = c.validated.maxPlayers ∧
      members.length = c.validated.maxPlayers ∧
      members.Pairwise (fun a b => a.num < b.num) ∧
      out.broadcast.inputs = members.mapIdx (fun i p =>
        ((lastInput p k h).getD 0 &&& 0xFE) ||| UInt8.ofNat i) ∧
      (∀ i p, members[i]? = some p → (out.broadcast.inputMask.toNat.testBit i = true ↔
        k = 0 ∨ (lastInput p k h).isSome = true)) ∧
      (∀ i, c.validated.maxPlayers ≤ i → out.broadcast.inputMask.toNat.testBit i = false) ∧
      ∀ after, let later := outputs (history (new id c) (before ++ .tick :: after))
        later[k]? = some out ∧
          ∀ j o, later[j]? = some o → o.broadcast.frame = out.broadcast.frame → j = k := by
  intro h members k
  have hnew := wellFormed_new id c
  have hr : WellFormed (run (new id c) before).2 := wellFormed_run hnew before
  have hconfig : (run (new id c) before).2.config = c.validated := run_config hnew before
  have hf : Follows h (run (new id c) before).2 := (Follows.new id c).run hnew before
  obtain ⟨hrunning, frame, hnext, hbroadcast⟩ := apply_tick_eq_some hr hout
  have hstarted := hr.nextFrame_ne_none hrunning
  have hk : k = frame := by
    show (outputs h).length = frame
    rw [hf.length_outputs, hnext, Option.getD_some]
  have hmembers : members.length = c.validated.maxPlayers := by
    rw [← hconfig]
    exact hr.members_full (Or.inr hrunning)
  have hseats : c.validated.maxPlayers ≤ 8 := Nat.min_le_right _ _
  have hlimit : c.validated.maxFrames ≤ UInt32.size := Nat.max_le.mpr ⟨hframes, by decide⟩
  -- The frame takes its place among the broadcasts, and any history has each number only once.
  have hlater : ∀ after,
      (outputs (history (new id c) (before ++ .tick :: after)))[k]? = some out := by
    intro after
    rw [history_append, history_cons, hout, outputs_append]
    exact List.getElem?_append_right (Nat.le_refl _) |>.trans (by rw [Nat.sub_self]; rfl)
  have hnumber : ∀ ops j (o : TickOutput), (outputs (history (new id c) ops))[j]? = some o →
      o.broadcast.frame.toNat = j := by
    intro ops j o hj
    have hops : Follows (history (new id c) ops) (run (new id c) ops).2 :=
      (Follows.new id c).run hnew ops
    exact hops.frame_toNat (by rw [run_config hnew ops]; exact hlimit) hj
  have hframe := hnumber _ k _ (hlater [])
  refine ⟨hframe, ?_, hmembers, hr.members_ascending, ?_, ?_, ?_, ?_⟩
  · rw [hbroadcast]
    show (UInt8.ofNat ((run (new id c) before).2.opened frame).members.length).toNat = _
    rw [opened_members, hmembers, UInt8.toNat_ofNat']
    exact Nat.mod_eq_of_lt (by omega)
  · rw [hbroadcast, hk]
    exact hf.inputs_frameAt hr hstarted frame
  · rw [hbroadcast, hk]
    exact fun i p hp => hf.mask_frameAt hr hnext hp
  · intro i hi
    have hopened := wellFormed_opened hr hrunning frame
    rw [← hconfig] at hi
    rw [hbroadcast]
    exact hopened.masks_low frame i (by rw [opened_config]; exact hi)
  · intro after
    refine ⟨hlater after, fun j o hj heq => ?_⟩
    rw [← hnumber _ j o hj, heq, hframe]

/-- A battle of two in which one member resends its input for frame 1 and the other sends none. -/
def resent : List Op :=
  [.join ⟨9⟩, .join ⟨7⟩, .ready ⟨9⟩ ⟨1⟩ 0, .ready ⟨7⟩ ⟨2⟩ 0, .tick, .input ⟨9⟩ ⟨1, 0x30⟩,
    .input ⟨9⟩ ⟨1, 0x45⟩]

theorem broadcast_refines_resent :
    ((run (new ⟨1⟩ .standard) resent).2.apply .tick).1 =
        .ticked (some ⟨⟨1, 2, 0b10, [0x00, 0x45]⟩, [⟨1⟩, ⟨2⟩], false⟩) ∧
      lastInput ⟨9⟩ 1 (history (new ⟨1⟩ .standard) resent) = some 0x45 ∧
      ∀ after, (outputs (history (new ⟨1⟩ .standard) (resent ++ .tick :: after)))[1]? =
        some ⟨⟨1, 2, 0b10, [0x00, 0x45]⟩, [⟨1⟩, ⟨2⟩], false⟩ := by
  have htick : ((run (new ⟨1⟩ .standard) resent).2.apply .tick).1 =
      .ticked (some ⟨⟨1, 2, 0b10, [0x00, 0x45]⟩, [⟨1⟩, ⟨2⟩], false⟩) := by decide
  obtain ⟨-, -, -, -, -, -, -, hlater⟩ :=
    broadcast_refines_history ⟨1⟩ .standard (by decide) resent _ htick
  exact ⟨htick, by decide, fun after => (hlater after).1⟩

end FrameSync.Room
