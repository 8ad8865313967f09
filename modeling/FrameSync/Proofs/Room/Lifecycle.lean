import FrameSync.Proofs.Room.Broadcast
import FrameSync.Proofs.Room.Readiness

/-!
# The life of a room

A room is created, waits for its members, runs and closes, and a battle ends for one of three
causes: its frames are used up, its last ready member leaves, or somebody closes it. `Progress` says
what a single operation can contribute to that: it leaves the phase alone or moves it forward, it
starts the battle exactly if it announces it, and it counts the frames up exactly if it broadcasts
one. `Ended` says what is left once the room is closed: it refuses what would change it, its ticks
are silent, and what the battle has brought stays as it is.

A full room whose members are all ready never waits. Nobody is ready before having joined, so the
join that fills a room leaves at least one member to come, and the `ready` of the last one starts
the battle (`Change.incomplete`). `lifecycle` puts this together for every history of a new room.
-/

set_option autoImplicit false

namespace FrameSync.Room

open Wire

variable {r r' : Room} {op : Op} {answer : Answer} {h : List (Op × Answer)}

/-! ## Reading a history -/

/-- The announcement that an answer carries. -/
def Answer.start? : Answer → Option StartBroadcast
  | .readied outcome => outcome.start
  | _ => none

/-- The announcements of a history, in order. -/
def starts (h : List (Op × Answer)) : List StartBroadcast := h.filterMap fun e => e.2.start?

/-- The number of the next frame; before the battle it is one below the first. -/
def frameNumber (r : Room) : Int :=
  match r.nextFrame with
  | none => -1
  | some frame => frame

/-- What a closed room has to answer to an operation that could change the battle, or take part in
it. -/
def answerWhenClosed (id : RoomId) : Op → Option Answer
  | .join _ | .ready _ _ _ | .input _ _ | .check _ _ => some (.refused (.closed id))
  | .tick => some (.ticked none)
  | .rebind _ _ | .disconnect _ | .close => none

/-- What an operation contributes to the life of a room. The phase stays, moves on to the next, or
to the end. The battle begins exactly with its announcement, which makes the first frame the next
one. A frame that is broadcast is counted, and nothing else is. A running room closes with its last
ready member. -/
structure Progress (r : Room) (answer : Answer) (r' : Room) : Prop where
  phase : r'.phase = r.phase ∨ r.phase.next = some r'.phase ∨ r'.phase = .closed
  started : answer.start?.isSome = true ↔ r.phase ≠ .running ∧ r'.phase = .running
  first : answer.start?.isSome = true → r.frameNumber = -1 ∧ r'.frameNumber = 0
  counted : answer.output?.isSome = true →
    r.phase = .running ∧ 0 ≤ r.frameNumber ∧ r'.frameNumber = r.frameNumber + 1
  uncounted : answer.start? = none → answer.output? = none → r'.frameNumber = r.frameNumber
  deserted : r.phase = .running → r'.ready = [] → r'.phase = .closed

/-- What has become of a closed room `r` after some more operations, with these answers. Whatever
could change the battle or take part in it is refused, and ticks answer no frame; the room is as it
was. -/
structure Ended (r : Room) (h : List (Op × Answer)) (r' : Room) : Prop where
  answers : ∀ e ∈ h, ∀ answer, answerWhenClosed r.id e.1 = some answer → e.2 = answer
  phase : r'.phase = .closed
  members : r'.members = r.members
  seats : r'.seats = r.seats
  masks : r'.masks = r.masks
  nextFrame : r'.nextFrame = r.nextFrame

/-! ## One operation -/

theorem frameNumber_eq_of_nextFrame (hnext : r'.nextFrame = r.nextFrame) :
    r'.frameNumber = r.frameNumber := by
  rw [frameNumber, hnext, frameNumber]

theorem frameNumber_of_none (hnext : r.nextFrame = none) : r.frameNumber = -1 := by
  rw [frameNumber, hnext]

theorem frameNumber_of_some {frame : Nat} (hnext : r.nextFrame = some frame) :
    r.frameNumber = frame := by
  rw [frameNumber, hnext]

/-- **The phase only moves forward.** -/
theorem Change.phase_cases (h : Change r op answer r') :
    r'.phase = r.phase ∨ r.phase.next = some r'.phase ∨ r'.phase = .closed := by
  cases h with
  | joined player hnew hcreated hplace =>
    -- the join that takes the last place ends the joining
    by_cases hfilled : r.members.length + 1 = r.config.maxPlayers
    · refine Or.inr (Or.inl ?_)
      simp only [hfilled, if_true, hcreated, Phase.next]
    · refine Or.inl ?_
      simp only [if_neg hfilled, hcreated]
  | started player conn now outcome hmember hcomplete =>
    have hwaits : r.phase = .waitingReady := hcomplete.1
    refine Or.inr (Or.inl ?_)
    rw [hwaits]
    rfl
  | ticked frame =>
    rw [advanceFrom_phase]
    split
    · exact Or.inr (Or.inr rfl)
    · exact Or.inl rfl
  | leftLast player => exact Or.inr (Or.inr (close_phase _))
  | closed => exact Or.inr (Or.inr (close_phase r))
  | _ => exact Or.inl rfl

/-- **The battle begins with its announcement**, and with nothing else. -/
theorem Change.start_iff (h : Change r op answer r') :
    answer.start?.isSome = true ↔ r.phase ≠ .running ∧ r'.phase = .running := by
  cases h with
  | started player conn now outcome hmember hcomplete _ _ hannounced =>
    have hwaits : r.phase = .waitingReady := hcomplete.1
    refine iff_of_true ?_ ⟨by rw [hwaits]; decide, rfl⟩
    simp only [Answer.start?, hannounced, Option.isSome_some]
  | enrolled player conn now outcome _ _ _ _ _ hannounced =>
    refine iff_of_false ?_ fun hbegins => hbegins.1 hbegins.2
    simp only [Answer.start?, hannounced, Option.isSome_none, Bool.false_eq_true, not_false_eq_true]
  | joined player =>
    -- a join may fill the room, which then waits
    refine iff_of_false Bool.false_ne_true fun hbegins => ?_
    have hphase := hbegins.2
    simp only at hphase
    split at hphase <;> cases hphase
  | ticked frame hrunning => exact iff_of_false Bool.false_ne_true fun hbegins => hbegins.1 hrunning
  | leftLast player hrunning =>
    exact iff_of_false Bool.false_ne_true fun hbegins => hbegins.1 hrunning
  | closed =>
    refine iff_of_false Bool.false_ne_true fun hbegins => ?_
    rw [close_phase] at hbegins
    cases hbegins.2
  | _ => exact iff_of_false Bool.false_ne_true fun hbegins => hbegins.1 hbegins.2

/-- An answer that carries a frame is that of a tick of a running room. -/
theorem Change.counted (h : Change r op answer r') (hout : answer.output?.isSome = true) :
    r.phase = .running ∧ 0 ≤ r.frameNumber ∧ r'.frameNumber = r.frameNumber + 1 := by
  cases h with
  | ticked frame hrunning hnext =>
    rw [frameNumber_of_some hnext, frameNumber_of_some (advanceFrom_nextFrame r frame)]
    exact ⟨hrunning, Int.natCast_nonneg frame, rfl⟩
  | _ => cases hout

/-- Without an announcement and without a frame the next frame stays what it is. -/
theorem Change.uncounted (h : Change r op answer r') (hstart : answer.start? = none)
    (hout : answer.output? = none) : r'.nextFrame = r.nextFrame := by
  cases h with
  | started player conn now outcome _ _ _ _ hannounced =>
    cases hannounced.symm.trans hstart
  | ticked frame => cases hout
  | leftLast player => exact close_nextFrame _
  | closed => exact close_nextFrame r
  | _ => rfl

/-- **What an operation contributes** to the life of a room. -/
theorem Change.progress (h : Change r op answer r') (hr : WellFormed r) (hr' : WellFormed r') :
    Progress r answer r' where
  phase := h.phase_cases
  started := h.start_iff
  first := fun hstart => by
    cases h with
    | started player conn now outcome hmember hcomplete =>
      exact ⟨frameNumber_of_none (hr.not_started (Or.inr hcomplete.1)), frameNumber_of_some rfl⟩
    | enrolled player conn now outcome _ _ _ _ _ hannounced =>
      rw [Answer.start?, hannounced] at hstart
      cases hstart
    | _ => cases hstart
  counted := h.counted
  uncounted := fun hstart hout => frameNumber_eq_of_nextFrame (h.uncounted hstart hout)
  deserted := fun hrunning hnone => by
    -- it cannot be running any more, and the only way on from there is to the end
    rcases h.phase_cases with hphase | hphase | hphase
    · exact absurd hnone (hr'.ready_ne_nil (hphase.trans hrunning))
    · rw [hrunning] at hphase
      exact (Option.some.inj hphase).symm
    · exact hphase

/-- **A closed room** answers every operation in the same way, and stays as it is but for the ready
entries. -/
theorem ended_apply (hclosed : r.phase = .closed) (op : Op) :
    Ended r [(op, (r.apply op).1)] (r.apply op).2 := by
  have hnotRunning : r.notRunningError = some (.closed r.id) := by
    rw [notRunningError, hclosed]
  have hidle : r.phase ≠ .running := by
    rw [hclosed]
    decide
  have hsame : r.close = r := if_pos hclosed
  -- of all that a room has, only the ready entries can still change
  suffices hanswer : (∀ answer, answerWhenClosed r.id op = some answer → (r.apply op).1 = answer) ∧
      ∃ ready, (r.apply op).2 = { r with ready } by
    obtain ⟨hanswer, ready, hroom⟩ := hanswer
    rw [hroom]
    refine ⟨fun e he => ?_, hclosed, rfl, rfl, rfl, rfl⟩
    rw [List.mem_singleton.mp he]
    exact hanswer
  cases op with
  | join player =>
    simp only [apply, join, if_pos hclosed]
    exact ⟨fun answer hanswer => Option.some.inj hanswer, r.ready, rfl⟩
  | ready player conn now =>
    simp only [apply, becomeReady, if_pos hclosed]
    exact ⟨fun answer hanswer => Option.some.inj hanswer, r.ready, rfl⟩
  | input player i =>
    simp only [apply, recordInput, hnotRunning]
    exact ⟨fun answer hanswer => Option.some.inj hanswer, r.ready, rfl⟩
  | check player c =>
    simp only [apply, submitCheck, hnotRunning]
    exact ⟨fun answer hanswer => Option.some.inj hanswer, r.ready, rfl⟩
  | tick =>
    simp only [apply, tick_of_not_running hidle]
    exact ⟨fun answer hanswer => Option.some.inj hanswer, r.ready, rfl⟩
  | rebind player conn => exact ⟨by simp [answerWhenClosed], _, rebind_snd r player conn⟩
  | disconnect player =>
    refine ⟨by simp [answerWhenClosed], (r.withoutEntry player).ready, ?_⟩
    rcases disconnect_cases r player with ⟨hroom, -⟩ | ⟨-, -, hrunning, -⟩
    · exact hroom
    · exact absurd hrunning hidle
  | close => exact ⟨by simp [answerWhenClosed], r.ready, hsame⟩

/-! ## Whole histories -/

/-- What has ended stays so. -/
theorem Ended.append {r'' : Room} {h' : List (Op × Answer)} (h₁ : Ended r h r') (hid : r'.id = r.id)
    (h₂ : Ended r' h' r'') : Ended r (h ++ h') r'' where
  answers := fun e he => by
    rcases List.mem_append.mp he with he | he
    · exact h₁.answers e he
    · exact hid ▸ h₂.answers e he
  phase := h₂.phase
  members := h₂.members.trans h₁.members
  seats := h₂.seats.trans h₁.seats
  masks := h₂.masks.trans h₁.masks
  nextFrame := h₂.nextFrame.trans h₁.nextFrame

/-- **Whatever is done to a closed room**, the battle is over and stays as it was. -/
theorem ended_run (hr : WellFormed r) (hclosed : r.phase = .closed) (ops : List Op) :
    Ended r (history r ops) (run r ops).2 := by
  induction ops generalizing r with
  | nil => exact ⟨fun e he => absurd he List.not_mem_nil, hclosed, rfl, rfl, rfl, rfl⟩
  | cons op rest ih =>
    have hfirst := ended_apply hclosed op
    exact hfirst.append (change_apply hr op).id_eq (ih (wellFormed_apply hr op) hfirst.phase)

/-- **The next frame counts** what is announced and what is broadcast. -/
theorem Progress.frameNumber_eq (hp : Progress r answer r') (op : Op) :
    r'.frameNumber = r.frameNumber + (starts [(op, answer)]).length +
      (outputs [(op, answer)]).length := by
  cases hstart : answer.start? with
  | some announcement =>
    -- what announces the battle is no tick
    have hout : answer.output? = none := by
      cases answer with
      | readied => rfl
      | _ => cases hstart
    obtain ⟨hbefore, hafter⟩ := hp.first (by rw [hstart]; rfl)
    simp [starts, outputs, hstart, hout, hbefore, hafter]
  | none =>
    cases hout : answer.output? with
    | some output =>
      obtain ⟨-, -, hafter⟩ := hp.counted (by rw [hout]; rfl)
      simp [starts, outputs, hstart, hout, hafter]
    | none => simp [starts, outputs, hstart, hout, hp.uncounted hstart hout]

theorem starts_append (g h : List (Op × Answer)) : starts (g ++ h) = starts g ++ starts h :=
  List.filterMap_append

/-- What has been announced and broadcast in a history is what the next frame of the room counts. -/
structure Counted (h : List (Op × Answer)) (r : Room) : Prop where
  frames : r.frameNumber = (starts h).length + (outputs h).length - 1
  once : (starts h).length ≤ 1

theorem counted_new (id : RoomId) (c : BattleConfig) : Counted [] (new id c) :=
  ⟨rfl, Nat.zero_le 1⟩

/-- **Announcements and frames are counted.** There is no second announcement, because the first one
ends the time before the battle. -/
theorem Counted.progress (hc : Counted h r) (hp : Progress r answer r') (op : Op) :
    Counted (h ++ [(op, answer)]) r' := by
  obtain ⟨hframes, honce⟩ := hc
  have hcount := hp.frameNumber_eq op
  refine ⟨?_, ?_⟩
  · rw [starts_append, outputs_append, List.length_append, List.length_append]
    omega
  · rw [starts_append, List.length_append]
    cases hstart : answer.start? with
    | some announcement =>
      have hbefore := (hp.first (by rw [hstart]; rfl)).1
      have hone : (starts [(op, answer)]).length = 1 := by simp [starts, hstart]
      omega
    | none =>
      have hnone : (starts [(op, answer)]).length = 0 := by simp [starts, hstart]
      omega

/-- What an operation contributes, with its own answer. -/
theorem progress_apply (hr : WellFormed r) (op : Op) : Progress r (r.apply op).1 (r.apply op).2 :=
  (change_apply hr op).progress hr (wellFormed_apply hr op)

theorem Counted.run (hc : Counted h r) (hr : WellFormed r) (ops : List Op) :
    Counted (h ++ history r ops) (Room.run r ops).2 := by
  induction ops generalizing h r with
  | nil => simpa [history, Room.run] using hc
  | cons op rest ih =>
    have hrest := ih (hc.progress (progress_apply hr op) op) (wellFormed_apply hr op)
    rwa [List.append_assoc, List.singleton_append] at hrest

/-- **No history takes the next frame back.** -/
theorem frameNumber_le_run (hr : WellFormed r) (ops : List Op) :
    r.frameNumber ≤ (run r ops).2.frameNumber := by
  induction ops generalizing r with
  | nil => exact Int.le_refl _
  | cons op rest ih =>
    have hcount := (progress_apply hr op).frameNumber_eq op
    have hrest : (r.apply op).2.frameNumber ≤ (run r (op :: rest)).2.frameNumber :=
      ih (wellFormed_apply hr op)
    omega

/-- **A full room whose members are all ready** has started its battle. -/
theorem WellFormed.started_of_ready (hr : WellFormed r)
    (hwaits : r.phase = .waitingReady → r.ready.length < r.config.maxPlayers)
    (hfull : r.members.length = r.config.maxPlayers) (hready : ∀ p ∈ r.members, p ∈ r.roster) :
    r.phase = .running ∨ r.phase = .closed := by
  cases hphase : r.phase with
  | created =>
    have hlt := hr.members_lt hphase
    omega
  | waitingReady =>
    -- there would be an entry for every member
    have hle : r.members.length ≤ r.roster.length :=
      (hr.members_nodup.subperm hready).length_le
    have hlt := hwaits hphase
    rw [roster, List.length_map] at hle
    omega
  | running => exact Or.inl rfl
  | closed => exact Or.inr rfl

/-- **A room that has come to the end of its frames** is closed, and has broadcast all of them. -/
theorem WellFormed.exhausted (hr : WellFormed r) (hf : Follows h r)
    (hlast : r.frameNumber = r.config.maxFrames) :
    (outputs h).length = r.config.maxFrames ∧ r.phase = .closed := by
  have hnext : r.nextFrame = some r.config.maxFrames := by
    cases hnext : r.nextFrame with
    | none =>
      rw [frameNumber_of_none hnext] at hlast
      omega
    | some frame =>
      rw [frameNumber_of_some hnext] at hlast
      rw [Int.ofNat_inj.mp hlast]
  refine ⟨?_, ?_⟩
  · rw [hf.length_outputs, hnext, Option.getD_some]
  · cases hphase : r.phase with
    | created => cases hnext.symm.trans (hr.not_started (Or.inl hphase))
    | waitingReady => cases hnext.symm.trans (hr.not_started (Or.inr hphase))
    | running =>
      -- a running room has a frame left
      obtain ⟨frame, hframe, hlt⟩ := hr.in_range hphase
      rw [hnext, Option.some.injEq] at hframe
      omega
    | closed => rfl

/-- **The life of a room.** After any history of a new room:

* a further operation leaves the phase alone or moves it forward, announces the battle exactly if it
  starts it, and counts the frames up exactly if it broadcasts one (`Progress`);
* the battle has been announced once at the most, and the next frame is the number of frames that
  have been broadcast since, or -1 before it; no later history takes it back, and a room that has come
  to the end of its frames has broadcast all of them and is closed;
* a full room whose members are all ready is running or closed, and a running room has a ready member;
* a closed room refuses whatever could change it, and stays as it is (`Ended`). -/
theorem lifecycle (id : RoomId) (c : BattleConfig) (ops : List Op) :
    let r := (run (new id c) ops).2
    let h := history (new id c) ops
    (∀ op, Progress r (r.apply op).1 (r.apply op).2) ∧
      (starts h).length ≤ 1 ∧
      r.frameNumber = (starts h).length + (outputs h).length - 1 ∧
      (∀ after, r.frameNumber ≤ (run r after).2.frameNumber) ∧
      (r.frameNumber = c.validated.maxFrames →
        (outputs h).length = c.validated.maxFrames ∧ r.phase = .closed) ∧
      (r.members.length = c.validated.maxPlayers → (∀ p ∈ r.members, p ∈ r.roster) →
        r.phase = .running ∨ r.phase = .closed) ∧
      (r.phase = .running → r.ready ≠ []) ∧
      (r.phase = .closed → ∀ after, Ended r (history r after) (run r after).2) := by
  intro r h
  have hnew := wellFormed_new id c
  have hr : WellFormed r := wellFormed_run hnew ops
  have hconfig : r.config = c.validated := run_config hnew ops
  have hcounted : Counted h r := (counted_new id c).run hnew ops
  have hfollows : Follows h r := (Follows.new id c).run hnew ops
  have hwaits : r.phase = .waitingReady → r.ready.length < r.config.maxPlayers :=
    incomplete_run hnew (by simp [new]) ops
  rw [← hconfig]
  exact ⟨progress_apply hr, hcounted.once, hcounted.frames, frameNumber_le_run hr,
    hr.exhausted hfollows, hr.started_of_ready hwaits, hr.ready_ne_nil,
    fun hclosed after => ended_run hr hclosed after⟩

end FrameSync.Room
