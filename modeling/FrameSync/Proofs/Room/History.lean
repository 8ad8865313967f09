import FrameSync.Proofs.Room.Invariant
import Mathlib.Data.List.Infix

/-!
# Histories of a room

`Change` lists what a single operation can do to a well-formed room, with its answer; what a whole
history does is then an induction over `run` with one case for each kind of change. The module ends
with the representation of a room after any history: it is well formed, it has a next frame exactly
if it has ever been running, and from the moment it is running its members and the order of its
seats stay as they are (`run_representation`).
-/

set_option autoImplicit false

namespace FrameSync.Room

open Wire

/-- What an operation does to a room, and what it answers. A refused operation changes nothing, nor
does a member that joins again, or a tick that finds the room not running. A member that is not the
last to be ready is enrolled; with the last one the battle starts. Integrity values of a frame are
kept, or compared and forgotten. Who disconnects loses its entry; with the last entry of a running
room the room closes. -/
inductive Change (r : Room) : Op → Answer → Room → Prop where
  | refused (op : Op) (error : RoomError) : Change r op (.refused error) r
  | rejoined (player : PlayerId) :
    player ∈ r.members → Change r (.join player) (.joined ⟨r.members, false, false⟩) r
  | joined (player : PlayerId) :
    player ∉ r.members → r.phase = .created → r.members.length < r.config.maxPlayers →
    Change r (.join player)
      (.joined ⟨insertMember player r.members, true,
        decide (r.members.length + 1 = r.config.maxPlayers)⟩)
      { r with
        members := insertMember player r.members
        phase := if r.members.length + 1 = r.config.maxPlayers then .waitingReady else .created }
  | enrolled (player : PlayerId) (conn : ConnId) (now : Nat) (outcome : Readied) :
    r.phase ≠ .closed → player ∈ r.members → ¬(r.enrol player conn).Complete →
    outcome.roster = (r.enrol player conn).roster →
    outcome.recipients = (r.enrol player conn).recipients → outcome.start = none →
    Change r (.ready player conn now) (.readied outcome) (r.enrol player conn)
  | started (player : PlayerId) (conn : ConnId) (now : Nat) (outcome : Readied) :
    player ∈ r.members → (r.enrol player conn).Complete →
    outcome.roster = (r.enrol player conn).roster →
    outcome.recipients = (r.enrol player conn).recipients → outcome.start = some ⟨.ok, 0, 0⟩ →
    Change r (.ready player conn now) (.readied outcome) ((r.enrol player conn).start now).2
  | rebound (player : PlayerId) (conn : ConnId) :
    Change r (.rebind player conn) (.rebound (r.isReady player))
      { r with ready := moveEntry player conn r.ready }
  | recorded (player : PlayerId) (i : FrameInput) (seat : Seat) :
    r.phase = .running → i.frame.toNat < r.config.maxFrames → r.seat? player = some seat →
    Change r (.input player i) .recorded
      { r with
        seats := r.seats.map fun s => if s.player = player then s.record i else s
        masks := r.masks.insert i.frame.toNat (r.mask i.frame.toNat ||| seat.bit) }
  | idle : r.phase ≠ .running → Change r .tick (.ticked none) r
  | ticked (frame : Nat) :
    r.phase = .running → r.nextFrame = some frame → frame < r.config.maxFrames →
    Change r .tick
      (.ticked (some ⟨(r.opened frame).frameAt frame, r.recipients,
        decide (r.config.maxFrames ≤ frame + 1)⟩))
      (r.advanceFrom frame)
  | checked (player : PlayerId) (c : CheckRequest) (verdict : Option Verdict)
      (checks : Table Nat (List (Nat × Int64))) :
    r.phase = .running → Change r (.check player c) (.checked verdict) { r with checks }
  | left (player : PlayerId) :
    Change r (.disconnect player) (.left ⟨r.isReady player, false⟩) (r.withoutEntry player)
  | leftLast (player : PlayerId) :
    r.phase = .running → (r.withoutEntry player).ready = [] →
    Change r (.disconnect player) (.left ⟨r.isReady player, true⟩) (r.withoutEntry player).close
  | closed : Change r .close .closed r.close

section Step

variable {r r' : Room} {op : Op} {answer : Answer}

/-- **Every operation is one of the changes.** -/
theorem change_of_apply (h : WellFormed r) (happly : r.apply op = (answer, r')) :
    Change r op answer r' := by
  cases op with
  | join player =>
    simp only [apply] at happly
    split at happly
    · cases happly
      exact .refused _ _
    · rename_i outcome r₁ hjoin
      cases happly
      obtain ⟨-, ⟨hmember, rfl, rfl⟩ | ⟨hnew, hphase, hplace, rfl, rfl⟩⟩ := join_eq_ok hjoin
      · exact .rejoined player hmember
      · exact .joined player hnew hphase hplace
  | ready player conn now =>
    simp only [apply] at happly
    split at happly
    · cases happly
      exact .refused _ _
    · rename_i outcome r₁ hready
      cases happly
      obtain ⟨hopen, hmember, hroster, hrecipients, ⟨hcomplete, rfl, hstart⟩ | ⟨hnot, rfl, hstart⟩⟩ :=
        becomeReady_eq_ok hready
      · exact .started player conn now outcome hmember hcomplete hroster hrecipients hstart
      · exact .enrolled player conn now outcome hopen hmember hnot hroster hrecipients hstart
  | rebind player conn =>
    have hroom := rebind_snd r player conn
    -- the answer is whether the player has an entry, and the change says it in those words
    have hdone : (r.rebind player conn).1 = r.isReady player := by
      rw [rebind]
      split
      · rename_i hready
        exact hready.symm
      · rename_i hready
        exact (Bool.eq_false_iff.mpr hready).symm
    simp only [apply] at happly
    cases happly
    rw [hroom, hdone]
    exact .rebound player conn
  | input player i =>
    simp only [apply] at happly
    split at happly
    · cases happly
      exact .refused _ _
    · rename_i r₁ hrecord
      cases happly
      obtain ⟨hrunning, hframe, seat, hseat, rfl⟩ := recordInput_eq_ok hrecord
      exact .recorded player i seat hrunning hframe hseat
  | tick =>
    by_cases hrunning : r.phase = .running
    · obtain ⟨frame, hnext, hframe⟩ := h.in_range hrunning
      simp only [apply, tick_of_running hrunning hnext hframe] at happly
      cases happly
      exact .ticked frame hrunning hnext hframe
    · simp only [apply, tick_of_not_running hrunning] at happly
      cases happly
      exact .idle hrunning
  | check player c =>
    simp only [apply] at happly
    split at happly
    · cases happly
      exact .refused _ _
    · rename_i verdict r₁ hcheck
      cases happly
      obtain ⟨hrunning, -, position, -, ⟨-, -, rfl⟩ | ⟨-, -, rfl⟩⟩ := submitCheck_eq_ok hcheck
      · exact .checked player c verdict _ hrunning
      · exact .checked player c verdict _ hrunning
  | disconnect player =>
    have hleft : (r.disconnect player).1.wasReady = r.isReady player := rfl
    simp only [apply] at happly
    cases happly
    rcases disconnect_cases r player with ⟨hroom, hclosed, -⟩ | ⟨hroom, hclosed, hrunning, hnone⟩
    · rw [hroom, show (r.disconnect player).1 = ⟨r.isReady player, false⟩ by rw [← hleft, ← hclosed]]
      exact .left player
    · rw [hroom, show (r.disconnect player).1 = ⟨r.isReady player, true⟩ by rw [← hleft, ← hclosed]]
      exact .leftLast player hrunning hnone
  | close =>
    simp only [apply] at happly
    cases happly
    exact .closed

/-- What an operation does, with its own answer. -/
theorem change_apply (h : WellFormed r) (op : Op) : Change r op (r.apply op).1 (r.apply op).2 :=
  change_of_apply h rfl

/-- The settings never change. -/
theorem Change.config_eq (h : Change r op answer r') : r'.config = r.config := by
  cases h with
  | ticked frame => exact advanceFrom_config r frame
  | leftLast player => exact close_config _
  | closed => exact close_config r
  | _ => rfl

/-- Nor does the number. -/
theorem Change.id_eq (h : Change r op answer r') : r'.id = r.id := by
  cases h with
  | ticked frame => exact advanceFrom_id r frame
  | leftLast player => exact close_id _
  | closed => exact close_id r
  | _ => rfl

/-- The next frame is set to the first when the battle starts, and is then counted up. -/
theorem Change.nextFrame_cases (h : Change r op answer r') :
    r'.nextFrame = r.nextFrame ∨ (r'.phase = .running ∧ r'.nextFrame = some 0) ∨
      ∃ frame, r.nextFrame = some frame ∧ r'.nextFrame = some (frame + 1) := by
  cases h with
  | started player conn now outcome => exact Or.inr (Or.inl ⟨rfl, rfl⟩)
  | ticked frame hrunning hnext hframe =>
    exact Or.inr (Or.inr ⟨frame, hnext, advanceFrom_nextFrame r frame⟩)
  | leftLast player => exact Or.inl (close_nextFrame _)
  | closed => exact Or.inl (close_nextFrame r)
  | _ => exact Or.inl rfl

/-- Only the start and the ticks touch the next frame. -/
theorem Change.nextFrame_eq (h : Change r op answer r') (htick : op ≠ .tick)
    (hstart : ∀ outcome, answer = .readied outcome → outcome.start = none) :
    r'.nextFrame = r.nextFrame := by
  cases h with
  | started player conn now outcome _ _ _ _ hannounced =>
    rw [hstart outcome rfl] at hannounced
    cases hannounced
  | ticked frame => exact absurd rfl htick
  | leftLast player => exact close_nextFrame _
  | closed => exact close_nextFrame r
  | _ => rfl

/-- Once the battle has started the members stay as they are. -/
theorem Change.members_eq (h : Change r op answer r') (hr : WellFormed r)
    (hstarted : r.nextFrame ≠ none) : r'.members = r.members := by
  cases h with
  | joined player hnew hphase hplace => exact absurd (hr.not_started (Or.inl hphase)) hstarted
  | ticked frame => exact advanceFrom_members r frame
  | leftLast player => exact close_members _
  | closed => exact close_members r
  | _ => rfl

end Step

/-! ## Whole histories -/

section Run

variable {r : Room}

theorem run_cons (r : Room) (op : Op) (ops : List Op) :
    run r (op :: ops) = ((r.apply op).1 :: (run (r.apply op).2 ops).1,
      (run (r.apply op).2 ops).2) := rfl

/-- **A history in two parts.** -/
theorem run_append (r : Room) (before after : List Op) :
    run r (before ++ after) = ((run r before).1 ++ (run (run r before).2 after).1,
      (run (run r before).2 after).2) := by
  induction before generalizing r with
  | nil => rfl
  | cons op rest ih => rw [List.cons_append, run_cons, ih, run_cons, List.cons_append]

theorem length_run (r : Room) (ops : List Op) : (run r ops).1.length = ops.length := by
  induction ops generalizing r with
  | nil => rfl
  | cons op rest ih => rw [run_cons, List.length_cons, ih, List.length_cons]

/-- **Every history keeps a room well formed.** -/
theorem wellFormed_run (h : WellFormed r) (ops : List Op) : WellFormed (run r ops).2 := by
  induction ops generalizing r with
  | nil => exact h
  | cons op rest ih => exact ih (wellFormed_apply h op)

theorem run_config (h : WellFormed r) (ops : List Op) : (run r ops).2.config = r.config := by
  induction ops generalizing r with
  | nil => rfl
  | cons op rest ih =>
    exact (ih (wellFormed_apply h op)).trans (change_apply h op).config_eq

theorem run_id (h : WellFormed r) (ops : List Op) : (run r ops).2.id = r.id := by
  induction ops generalizing r with
  | nil => rfl
  | cons op rest ih => exact (ih (wellFormed_apply h op)).trans (change_apply h op).id_eq

/-- A battle that has started stays so, with the members it has. -/
theorem run_started (h : WellFormed r) (hstarted : r.nextFrame ≠ none) (ops : List Op) :
    (run r ops).2.nextFrame ≠ none ∧ (run r ops).2.members = r.members := by
  induction ops generalizing r with
  | nil => exact ⟨hstarted, rfl⟩
  | cons op rest ih =>
    have hchange := change_apply h op
    have hstarted' : (r.apply op).2.nextFrame ≠ none := by
      rcases hchange.nextFrame_cases with e | ⟨-, e⟩ | ⟨frame, -, e⟩
      · rwa [e]
      · rw [e]; exact Option.some_ne_none _
      · rw [e]; exact Option.some_ne_none _
    obtain ⟨hnext, hmembers⟩ := ih (wellFormed_apply h op) hstarted'
    exact ⟨hnext, hmembers.trans (hchange.members_eq h hstarted)⟩

/-- A battle that has started in a history was running at some time of it. -/
theorem exists_running (h : WellFormed r) (hunstarted : r.nextFrame = none) (ops : List Op)
    (hstarted : (run r ops).2.nextFrame ≠ none) :
    ∃ before, before <+: ops ∧ (run r before).2.phase = .running := by
  induction ops generalizing r with
  | nil => exact absurd hunstarted hstarted
  | cons op rest ih =>
    by_cases hnext : (r.apply op).2.nextFrame = none
    · -- the battle starts later
      obtain ⟨before, hbefore, hrunning⟩ := ih (wellFormed_apply h op) hnext hstarted
      exact ⟨op :: before, List.cons_prefix_cons.mpr ⟨rfl, hbefore⟩, hrunning⟩
    · -- this operation has started it
      refine ⟨[op], List.cons_prefix_cons.mpr ⟨rfl, List.nil_prefix⟩, ?_⟩
      rcases (change_apply h op).nextFrame_cases with
        e | ⟨hrunning, -⟩ | ⟨frame, e, -⟩
      · exact absurd (e.trans hunstarted) hnext
      · exact hrunning
      · rw [hunstarted] at e
        cases e

/-- **The representation of a room after any history.** It is well formed under the settings brought
into range; it has a next frame exactly if it has ever been running; and ever since it was, its
members are the same and its seats are theirs, in order. -/
theorem run_representation (id : RoomId) (c : BattleConfig) (ops : List Op) :
    let r := (run (new id c) ops).2
    r.config = c.validated ∧ WellFormed r ∧
      (r.nextFrame = none ↔
        ∀ before, before <+: ops → (run (new id c) before).2.phase ≠ .running) ∧
      ∀ before, before <+: ops → (run (new id c) before).2.phase = .running →
        r.members = (run (new id c) before).2.members ∧
        r.seats.length = c.validated.maxPlayers ∧
        r.seats.map Seat.player = r.members ∧
        r.seats.map Seat.position = List.range c.validated.maxPlayers := by
  have hnew := wellFormed_new id c
  have hconfig : (run (new id c) ops).2.config = c.validated := run_config hnew ops
  have hwell := wellFormed_run hnew ops
  -- a room that was running has had a next frame and the same members ever since
  have hsince : ∀ before, before <+: ops → (run (new id c) before).2.phase = .running →
      (run (new id c) ops).2.nextFrame ≠ none ∧
        (run (new id c) ops).2.members = (run (new id c) before).2.members := by
    rintro before ⟨after, rfl⟩ hrunning
    have hbefore := wellFormed_run hnew before
    rw [run_append]
    exact run_started hbefore (hbefore.nextFrame_ne_none hrunning) after
  refine ⟨hconfig, hwell, ⟨fun hnone before hbefore hrunning => ?_, fun hnever => ?_⟩, ?_⟩
  · exact (hsince before hbefore hrunning).1 hnone
  · refine Classical.byContradiction fun hstarted => ?_
    obtain ⟨before, hbefore, hrunning⟩ := exists_running hnew rfl ops hstarted
    exact hnever before hbefore hrunning
  · intro before hbefore hrunning
    obtain ⟨hstarted, hmembers⟩ := hsince before hbefore hrunning
    obtain ⟨hplayers, hpositions⟩ := hwell.seats_ordered hstarted
    rw [hconfig] at hpositions
    exact ⟨hmembers, (hwell.length_seats hstarted).trans (by rw [hconfig]), hplayers, hpositions⟩

end Run

end FrameSync.Room
