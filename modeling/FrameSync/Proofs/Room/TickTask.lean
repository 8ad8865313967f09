import FrameSync.Proofs.Room.Broadcast
import FrameSync.Proofs.Room.Turns

/-!
# The tick task

From the moment the ticker of a running room is started it is the only source of frames, and it has
to get along with whatever else is done to the slot: players who become ready again, move to another
connection or leave, inputs and integrity values, and the room being closed, through the slot or
around it. `tick_task` says what holds of the slot at any time (`Task`): each tick that answers a
frame sends it to every ready entry once, where the entry then is; the frames are counted up from 0;
the last one stops the slot, and a stopped slot is silent for good.

Which of these operations closes the room, and whether the ticker has looked at it since, makes no
difference to the invariant (`Active`): the ticker waits exactly as long as the slot is not stopped.
Nor does it say when ticks are due, so it is kept by late ticks as well, under every policy and
whatever number the ticker has drawn.
-/

set_option autoImplicit false

namespace FrameSync

open Wire Tick

namespace Room

/-! ## Rooms -/

/-- Without a tick, the next frame stays what it is, or the battle starts. -/
theorem Change.nextFrame_of_ne_tick {r r' : Room} {op : Op} {answer : Answer}
    (h : Change r op answer r') (hr : WellFormed r) (hop : op ≠ .tick) :
    r'.nextFrame = r.nextFrame ∨ (r.nextFrame = none ∧ r'.nextFrame = some 0) := by
  cases h with
  | started player conn now outcome hmember hcomplete =>
    exact Or.inr ⟨hr.not_started (Or.inr hcomplete.1), rfl⟩
  | ticked frame => exact absurd rfl hop
  | leftLast player => exact Or.inl (close_nextFrame _)
  | closed => exact Or.inl (close_nextFrame r)
  | _ => exact Or.inl rfl

/-- The frames that some ticks in a row broadcast. -/
def ticked (r : Room) (n : Nat) : List TickOutput := outputs (history r (List.replicate n .tick))

theorem ticked_succ (r : Room) (n : Nat) :
    r.ticked (n + 1) = r.tick.1.toList ++ r.tick.2.ticked n := by
  have happly : r.apply .tick = (.ticked r.tick.1, r.tick.2) := rfl
  have houtput : (Answer.ticked r.tick.1).output? = r.tick.1 := rfl
  rw [ticked, List.replicate_succ, history_cons, happly, outputs, List.filterMap_cons, houtput]
  cases r.tick.1 <;> rfl

namespace Slot

variable {encoder : Encoder} {s s' : Slot} {schedule : Schedule} {now target : Nat}

/-! ## What a ticker sends -/

/-- The firing carries a frame, written once, to every entry. -/
structure Carries (encoder : Encoder) (ready : List ReadyEntry) (out : TickOutput) (f : Firing) :
    Prop where
  frame : f.frame = out.broadcast.frame
  sent : f.sent =
    match encoder.encode out.broadcast with
    | .error _ => []
    | .ok payload => ready.map fun e => ⟨e.conn, ⟨BattleCommand.frame.toByte, payload⟩⟩

/-- A tick that answers a frame answers it for the entries of its room. -/
theorem carries_of_tick {r : Room} {out : TickOutput} {f : Firing} (h : r.WellFormed)
    (hout : r.tick.1 = some out) (hframe : f.frame = out.broadcast.frame)
    (hsent : f.sent = out.deliveries encoder) : Carries encoder r.ready out f := by
  obtain ⟨-, -, -, -, hrecipients, -⟩ := tick_eq_some h hout
  refine ⟨hframe, ?_⟩
  rw [hsent, TickOutput.deliveries, hrecipients]
  cases encoder.encode out.broadcast with
  | error => rfl
  | ok payload => exact List.map_map

/-- **A ticker sends what its ticks answer**, each of them, until one answers nothing. -/
theorem runSchedule_carries (h : s.room.WellFormed) :
    ∃ n, (s.runSchedule encoder schedule now target).2.room = s.room.afterTicks n ∧
      List.Forall₂ (Carries encoder s.room.ready) (s.room.ticked n)
        (s.runSchedule encoder schedule now target).1 ∧
      ((s.runSchedule encoder schedule now target).2.stopped = false →
        n = (s.runSchedule encoder schedule now target).1.length) := by
  fun_induction runSchedule encoder s schedule now target with
  | case1 s schedule now hdue fired ticked s' hnone =>
    -- the room is not running, and the ticker ends
    refine ⟨1, rfl, ?_, fun hgoes => by cases hgoes⟩
    rw [ticked_succ, show s.room.tick.1 = none from hnone]
    exact .nil
  | case2 s schedule now hdue fired ticked s₁ out hout firing s₂ hlast =>
    -- the last frame
    refine ⟨1, rfl, ?_, fun hgoes => by cases hgoes⟩
    rw [ticked_succ, show s.room.tick.1 = some out from hout]
    exact .cons (carries_of_tick h hout rfl rfl) .nil
  | case3 s schedule now hdue fired ticked s₁ out hout firing s₂ hlast later ih =>
    -- one frame, and then those of the ticks from the next room on, which has the same entries
    obtain ⟨n, hroom, hcarries, hstays⟩ := ih (wellFormed_tick h)
    have hready : ticked.2.ready = s.room.ready := (afterTicks_spec h 1).2
    refine ⟨n + 1, hroom, ?_, fun hgoes => congrArg (· + 1) (hstays hgoes)⟩
    rw [ticked_succ, show s.room.tick.1 = some out from hout]
    refine .cons (carries_of_tick h hout rfl rfl) ?_
    rw [← hready]
    exact hcarries
  | case4 s schedule now hwaits => exact ⟨0, rfl, .nil, fun _ => rfl⟩

theorem runTicker_carries (h : s.room.WellFormed) (encoder : Encoder) (now target : Nat) :
    ∃ n, (s.runTicker encoder now target).2.room = s.room.afterTicks n ∧
      List.Forall₂ (Carries encoder s.room.ready) (s.room.ticked n)
        (s.runTicker encoder now target).1 ∧
      ((s.runTicker encoder now target).2.stopped = false →
        n = (s.runTicker encoder now target).1.length) := by
  rw [runTicker]
  cases s.ticker with
  | none => exact ⟨0, rfl, .nil, fun _ => rfl⟩
  | some schedule => exact runSchedule_carries h

/-- A tick tells whether its frame is the last one. -/
theorem closed_of_tick {r : Room} {out : TickOutput} {frame : Nat} (h : r.WellFormed)
    (hout : r.tick.1 = some out) (hnext : r.nextFrame = some frame) :
    out.closed = decide (r.config.maxFrames ≤ frame + 1) := by
  have hrunning : r.phase = .running := running_of_tick hout
  obtain ⟨frame', hnext', hframe⟩ := h.in_range hrunning
  obtain rfl : frame' = frame := Option.some.inj (hnext'.symm.trans hnext)
  rw [tick_of_running hrunning hnext hframe] at hout
  cases hout
  rfl

/-- A tick leaves the room running, or closes it with its last frame. -/
theorem phase_of_tick {r : Room} {out : TickOutput} (h : r.WellFormed) (hout : r.tick.1 = some out) :
    r.tick.2.phase = if out.closed then .closed else .running := by
  obtain ⟨frame, hnext, -, -, -, hroom⟩ := tick_eq_some h hout
  rw [hroom, advanceFrom_phase, closed_of_tick h hout hnext, running_of_tick hout]
  simp only [decide_eq_true_eq]

theorem Counts.length_eq {r r' : Room} {firings : List Firing} {n : Nat}
    (h : Counts r r' firings n) : firings.length = n := by
  have hlength := congrArg List.length h.frames
  rwa [List.length_map, List.length_map, List.length_range'] at hlength

/-- **The last frame of the room stops the ticker.** -/
theorem runSchedule_exhausted (h : s.room.WellFormed)
    (hsent : (s.runSchedule encoder schedule now target).1 ≠ [])
    (hend : (s.runSchedule encoder schedule now target).2.room.nextFrame =
      some s.room.config.maxFrames) :
    (s.runSchedule encoder schedule now target).2.stopped = true := by
  fun_induction runSchedule encoder s schedule now target with
  | case1 | case2 => rfl
  | case3 s schedule now hdue fired ticked s₁ out hout firing s₂ hlast later ih =>
    obtain ⟨frame, hframe, -, -, -, hroom⟩ := tick_eq_some h hout
    by_cases hmore : later.1 = []
    · -- nothing was sent any more, so the next frame is the one behind that of this tick
      have hlater : ∃ n, Counts ticked.2 later.2.room later.1 n :=
        runSchedule_counts (s := s₂) (wellFormed_tick h)
      obtain ⟨n, hcounts⟩ := hlater
      have hn : n = 0 := hcounts.length_eq.symm.trans (congrArg List.length hmore)
      have hnext : later.2.room.nextFrame = some (frame + 1) := by
        rw [hcounts.next, hn, show ticked.2 = s.room.advanceFrom frame from hroom,
          advanceFrom_nextFrame]
        rfl
      have hfull : frame + 1 = s.room.config.maxFrames := Option.some.inj (hnext.symm.trans hend)
      rw [closed_of_tick h hout hframe, hfull] at hlast
      exact absurd (decide_eq_true (Nat.le_refl _)) hlast
    · have hconfig : ticked.2.config = s.room.config := (change_apply h .tick).config_eq
      exact ih (wellFormed_tick h) hmore (hconfig ▸ hend)
  | case4 => exact absurd rfl hsent

/-- A ticker that goes on has taken every tick that was due. -/
theorem runSchedule_due (hnow : now ≤ target) {next : Schedule}
    (hgoes : (s.runSchedule encoder schedule now target).2.ticker = some next) :
    target < Schedule.wholeMs next.next := by
  fun_induction runSchedule encoder s schedule now target with
  | case1 | case2 => cases hgoes
  | case3 s schedule now hdue fired ticked s₁ out hout firing s₂ hlast later ih =>
    exact ih hdue hgoes
  | case4 s schedule now hwaits =>
    -- it waits for a tick that is due only after the target
    cases hgoes
    rw [Schedule.wake] at hwaits
    omega

/-- A ticker that ends stops its slot. -/
theorem runSchedule_ends (hgoes : s.stopped = false) :
    (s.runSchedule encoder schedule now target).2.stopped =
      (s.runSchedule encoder schedule now target).2.ticker.isNone := by
  fun_induction runSchedule encoder s schedule now target with
  | case1 | case2 => rfl
  | case3 s schedule now hdue fired ticked s₁ out hout firing s₂ hlast later ih => exact ih hgoes
  | case4 => exact hgoes

/-! ## Operations on a slot -/

/-- The frames that an operation sent. -/
def Answer.firings : Answer → List Firing
  | .advanced firings => firings
  | _ => []

/-- The frames that were sent, in order. -/
def sentFrames (answers : List Answer) : List Firing := answers.flatMap Answer.firings

/-- What is done to a slot by others than its ticker: an operation on the room. The ticker is left
alone, or told to stop since the room has been closed, on purpose or with its last entry. -/
inductive Served (s : Slot) (op : Room.Op) : Slot → Prop where
  | room : Served s op { s with room := (s.room.apply op).2 }
  | closes : (s.room.apply op).2.phase = .closed →
    (op = .close ∨ (s.room.apply op).2.ready = []) →
    Served s op (Slot.stop { s with room := (s.room.apply op).2 })

/-- **Every operation** starts the ticker, lets it run, or is one of others, which sends nothing. -/
theorem apply_served (encoder : Encoder) (s : Slot) (op : Op) :
    (∃ t draw, op = .spawnTicker t draw) ∨ (∃ now target, op = .advance now target) ∨
      (s.apply encoder op).1.firings = [] ∧
        ∃ roomOp, Served s roomOp (s.apply encoder op).2 ∧
          (roomOp = .tick → op = .onRoom .tick) ∧
          (roomOp = .close → op = .close ∨ op = .onRoom .close) := by
  cases op with
  | spawnTicker t draw => exact Or.inl ⟨t, draw, rfl⟩
  | advance now target => exact Or.inr (Or.inl ⟨now, target, rfl⟩)
  | onRoom op =>
    exact Or.inr (Or.inr ⟨rfl, op, .room, congrArg Op.onRoom, fun h => Or.inr (congrArg Op.onRoom h)⟩)
  | ready player conn now =>
    -- whether it is granted or refused, nothing is sent and the ticker is left alone
    have hready : (s.apply encoder (.ready player conn now)).1.firings = [] ∧
        (s.apply encoder (.ready player conn now)).2 =
          { s with room := (s.room.apply (.ready player conn now)).2 } := by
      simp only [apply, ready, Room.apply]
      cases s.room.becomeReady player conn now <;> exact ⟨rfl, rfl⟩
    refine Or.inr (Or.inr ⟨hready.1, .ready player conn now, ?_, by simp, by simp⟩)
    rw [hready.2]
    exact .room
  | rebind player conn =>
    exact Or.inr (Or.inr ⟨rfl, .rebind player conn, .room, by simp, by simp⟩)
  | disconnect player =>
    refine Or.inr (Or.inr ⟨rfl, .disconnect player, ?_, by simp, by simp⟩)
    show Served s (.disconnect player) (if (s.room.disconnect player).1.closed = true then
      Slot.stop { s with room := (s.room.disconnect player).2 } else
      { s with room := (s.room.disconnect player).2 })
    rcases disconnect_cases s.room player with ⟨-, hopen, -⟩ | ⟨hroom, hclosed, -, hnone⟩
    · rw [hopen]
      exact .room
    · -- the room closes with its last entry
      rw [if_pos hclosed]
      have hleft : (s.room.apply (.disconnect player)).2 = (s.room.withoutEntry player).close := hroom
      refine .closes ?_ (Or.inr ?_)
      · rw [hleft]
        exact close_phase _
      · rw [hleft]
        exact (close_ready _).trans hnone
  | close =>
    exact Or.inr (Or.inr ⟨rfl, .close, .closes (close_phase _) (Or.inl rfl), by simp,
      fun _ => Or.inl rfl⟩)

/-- What others do, as far as the ticker is concerned: an operation on the room, and the ticker is
left alone or told to stop. -/
structure Tended (s : Slot) (op : Room.Op) (s' : Slot) : Prop where
  room : s'.room = (s.room.apply op).2
  started : s'.tickerStarted = s.tickerStarted
  ticker : (s'.stopped = s.stopped ∧ s'.ticker = s.ticker) ∨ (s'.stopped = true ∧ s'.ticker = none)

theorem Served.tended {op : Room.Op} (h : Served s op s') : Tended s op s' := by
  cases h with
  | room => exact ⟨rfl, rfl, Or.inl ⟨rfl, rfl⟩⟩
  | closes => exact ⟨rfl, rfl, Or.inr ⟨rfl, rfl⟩⟩

theorem apply_cases (encoder : Encoder) (s : Slot) (op : Op) :
    (∃ t draw, op = .spawnTicker t draw) ∨ (∃ now target, op = .advance now target) ∨
      (s.apply encoder op).1.firings = [] ∧
        ∃ roomOp, (roomOp = .tick → op = .onRoom .tick) ∧
          Tended s roomOp (s.apply encoder op).2 := by
  rcases apply_served encoder s op with hspawn | hadvance |
    ⟨hnothing, roomOp, hserved, htick, -⟩
  · exact Or.inl hspawn
  · exact Or.inr (Or.inl hadvance)
  · exact Or.inr (Or.inr ⟨hnothing, roomOp, htick, hserved.tended⟩)

/-! ## The ticker and the operations of others -/

/-- A slot whose ticker has been started, in a room that has begun. The ticker will not be started
again, and it waits exactly as long as the slot is not stopped. -/
structure Active (s : Slot) : Prop where
  wellFormed : s.room.WellFormed
  begun : s.room.nextFrame ≠ none
  started : s.tickerStarted = true
  ends : s.stopped = s.ticker.isNone

/-- A slot whose ticker has not been started, in a room that has broadcast no frame. -/
structure Waiting (s : Slot) : Prop where
  wellFormed : s.room.WellFormed
  fresh : s.room.nextFrame = none ∨ s.room.nextFrame = some 0
  started : s.tickerStarted = false
  ticker : s.ticker = none

theorem Tended.counts {op : Room.Op} (h : Tended s op s') (hwell : s.room.WellFormed)
    (hbegun : s.room.nextFrame ≠ none) (hop : op ≠ .tick) :
    Counts s.room s'.room [] 0 := by
  rcases (change_apply hwell op).nextFrame_of_ne_tick hwell hop with hnext | ⟨hnone, -⟩
  · refine ⟨rfl, ?_, fun hne => absurd rfl hne⟩
    rw [h.room, hnext]
    simp
  · exact absurd hnone hbegun

theorem Active.tended {op : Room.Op} (h : Active s) (htended : Tended s op s') : Active s' where
  wellFormed := by
    rw [htended.room]
    exact wellFormed_apply h.wellFormed op
  begun := by
    rw [htended.room]
    exact (run_started h.wellFormed h.begun [op]).1
  started := htended.started.trans h.started
  ends := by
    rcases htended.ticker with ⟨hstopped, hticker⟩ | ⟨hstopped, hticker⟩
    · rw [hstopped, hticker]
      exact h.ends
    · rw [hstopped, hticker]
      rfl

theorem Active.runTicker (h : Active s) (encoder : Encoder) (now target : Nat) :
    Active (s.runTicker encoder now target).2 := by
  obtain ⟨n, hroom, -⟩ := runTicker_spec encoder s now target
  refine ⟨?_, ?_, ?_, ?_⟩
  · rw [hroom]
    exact wellFormed_run h.wellFormed _
  · rw [hroom]
    exact (run_started h.wellFormed h.begun _).1
  · exact (runTicker_ticker s encoder now target).1.trans h.started
  · have hends := h.ends
    rw [Slot.runTicker]
    cases hticker : s.ticker with
    | none =>
      rw [hticker] at hends
      simp only [hticker]
      exact hends
    | some schedule =>
      rw [hticker] at hends
      exact runSchedule_ends hends

/-- A ticker that has been started is not started again. -/
theorem Active.spawnTicker (h : Active s) (t draw : Nat) :
    s.spawnTicker t draw = (false, s) := by
  rw [Slot.spawnTicker, if_pos h.started]

/-- **Every operation** but a tick around the slot keeps the ticker in order, and counts frames up
if it sends any. -/
theorem Active.apply (h : Active s) (encoder : Encoder) {op : Op} (hop : op ≠ .onRoom .tick) :
    Active (s.apply encoder op).2 ∧ (s.apply encoder op).2.room.config = s.room.config ∧
      ∃ n, Counts s.room (s.apply encoder op).2.room (s.apply encoder op).1.firings n := by
  rcases apply_cases encoder s op with ⟨t, draw, rfl⟩ | ⟨now, target, rfl⟩ |
    ⟨hnothing, roomOp, hroomOp, htended⟩
  · -- a ticker that has been started
    have hsame : s.apply encoder (.spawnTicker t draw) = (.spawned false, s) := by
      simp only [Slot.apply, h.spawnTicker]
    rw [hsame]
    exact ⟨h, rfl, 0, counts_none⟩
  · -- time that passes
    obtain ⟨n, hroom, -⟩ := runTicker_spec encoder s now target
    refine ⟨h.runTicker encoder now target, ?_, runTicker_counts h.wellFormed encoder now target⟩
    show (s.runTicker encoder now target).2.room.config = _
    rw [hroom]
    exact run_config h.wellFormed _
  · -- what others do, which sends nothing
    refine ⟨h.tended htended, ?_, 0, ?_⟩
    · rw [htended.room]
      exact (change_apply h.wellFormed roomOp).config_eq
    · rw [hnothing]
      exact htended.counts h.wellFormed h.begun fun htick => hop (hroomOp htick)

/-! ## Histories -/

theorem run_cons (encoder : Encoder) (s : Slot) (op : Op) (ops : List Op) :
    run encoder s (op :: ops) =
      ((s.apply encoder op).1 :: (run encoder (s.apply encoder op).2 ops).1,
        (run encoder (s.apply encoder op).2 ops).2) := rfl

/-- Frames counted up one behind the other. -/
theorem Counts.append {r r' r'' : Room} {fs gs : List Firing} {m n : Nat} (h : Counts r r' fs m)
    (h' : Counts r' r'' gs n) (hconfig : r'.config = r.config) :
    Counts r r'' (fs ++ gs) (m + n) := by
  obtain ⟨hframes, hafter, hbounded⟩ := h'
  rw [h.next] at hframes hafter hbounded
  refine ⟨?_, ?_, ?_⟩
  · rw [List.map_append, h.frames, hframes, ← List.map_append]
    congr 1
    cases hnext : r.nextFrame with
    | none =>
      -- before the battle there is nothing to count
      have hn : n = 0 := by
        by_contra hn
        exact (hbounded hn).1 (by rw [hnext]; rfl)
      rw [hn, List.range'_zero, List.append_nil, Nat.add_zero]
    | some k => exact List.range'_append_1
  · rw [hafter, Option.map_map]
    congr 1
    funext k
    exact Nat.add_assoc k m n
  · intro hne
    by_cases hn : n = 0
    · rw [hn, Nat.add_zero] at hne ⊢
      exact h.bounded hne
    · obtain ⟨hbegun, hle⟩ := hbounded hn
      rw [hconfig] at hle
      cases hnext : r.nextFrame with
      | none =>
        rw [hnext] at hbegun
        exact absurd rfl hbegun
      | some k =>
        rw [hnext, Option.map_some, Option.getD_some] at hle
        rw [Option.getD_some, ← Nat.add_assoc]
        exact ⟨Option.some_ne_none k, hle⟩

/-- **A history of an active slot** keeps it so and counts its frames up. -/
theorem Active.run (h : Active s) (encoder : Encoder) {ops : List Op}
    (hops : ∀ op ∈ ops, op ≠ .onRoom .tick) :
    Active (run encoder s ops).2 ∧ (run encoder s ops).2.room.config = s.room.config ∧
      ∃ n, Counts s.room (run encoder s ops).2.room (sentFrames (run encoder s ops).1) n := by
  induction ops generalizing s with
  | nil => exact ⟨h, rfl, 0, counts_none⟩
  | cons op ops ih =>
    obtain ⟨hactive, hconfig, m, hcounts⟩ := h.apply encoder (hops op List.mem_cons_self)
    -- the rest is counted from where this operation has left off
    obtain ⟨hactive', hconfig', n, hcounts'⟩ :=
      ih hactive fun op' hop' => hops op' (List.mem_cons_of_mem op hop')
    rw [run_cons]
    exact ⟨hactive', hconfig'.trans hconfig, m + n, hcounts.append hcounts' hconfig⟩

/-- **A stopped slot is silent**, whatever is done to it. -/
theorem silent_run (hstopped : s.stopped = true) (hticker : s.ticker = none) (ops : List Op) :
    sentFrames (run encoder s ops).1 = [] ∧ (run encoder s ops).2.stopped = true := by
  induction ops generalizing s with
  | nil => exact ⟨rfl, hstopped⟩
  | cons op ops ih =>
    have hstep : (s.apply encoder op).1.firings = [] ∧ (s.apply encoder op).2.stopped = true ∧
        (s.apply encoder op).2.ticker = none := by
      rcases apply_cases encoder s op with ⟨t, draw, rfl⟩ | ⟨now, target, rfl⟩ |
        ⟨hnothing, roomOp, -, htended⟩
      · -- a ticker that is started now ends at once
        have hends : (s.spawnTicker t draw).2.stopped = true ∧
            (s.spawnTicker t draw).2.ticker = none := by
          by_cases hstarted : s.tickerStarted = true
          · rw [Slot.spawnTicker, if_pos hstarted]
            exact ⟨hstopped, hticker⟩
          · rw [Slot.spawnTicker, if_neg hstarted]
            exact ⟨hstopped, if_pos hstopped⟩
        exact ⟨rfl, hends⟩
      · -- time passes over a slot without a ticker
        have hsame : s.apply encoder (.advance now target) = (.advanced [], s) := by
          simp only [Slot.apply, Slot.runTicker, hticker]
        rw [hsame]
        exact ⟨rfl, hstopped, hticker⟩
      · rcases htended.ticker with ⟨hsame, hsame'⟩ | ⟨hends, hends'⟩
        · exact ⟨hnothing, hsame.trans hstopped, hsame'.trans hticker⟩
        · exact ⟨hnothing, hends, hends'⟩
    obtain ⟨hnothing, hstopped', hticker'⟩ := hstep
    obtain ⟨hsilent, hstays⟩ := ih hstopped' hticker'
    rw [run_cons]
    refine ⟨?_, hstays⟩
    show (s.apply encoder op).1.firings ++ sentFrames _ = []
    rw [hnothing, hsilent]
    rfl

/-- The operation starts the ticker, or ticks the room around it. -/
def Op.Ticks : Op → Prop
  | .spawnTicker _ _ => True
  | .onRoom .tick => True
  | _ => False

theorem waiting_ofRoom (id : RoomId) (c : BattleConfig) (stopped : Bool) :
    Waiting (ofRoom (Room.new id c) stopped) where
  wellFormed := wellFormed_new id c
  fresh := Or.inl rfl
  started := rfl
  ticker := rfl

theorem Waiting.run (h : Waiting s) {ops : List Op} (hops : ∀ op ∈ ops, ¬op.Ticks) :
    Waiting (run encoder s ops).2 := by
  induction ops generalizing s with
  | nil => exact h
  | cons op ops ih =>
    rw [run_cons]
    refine ih ?_ fun op' hop' => hops op' (List.mem_cons_of_mem op hop')
    have hop := hops op List.mem_cons_self
    rcases apply_cases encoder s op with ⟨t, draw, rfl⟩ | ⟨now, target, rfl⟩ |
      ⟨-, roomOp, hroomOp, htended⟩
    · exact absurd trivial hop
    · -- there is no ticker to run
      have hsame : (s.apply encoder (.advance now target)).2 = s := by
        simp only [Slot.apply, Slot.runTicker, h.ticker]
      rw [hsame]
      exact h
    · have htick : roomOp ≠ .tick := by
        intro htick
        rw [hroomOp htick] at hop
        exact hop trivial
      refine ⟨?_, ?_, htended.started.trans h.started, ?_⟩
      · rw [htended.room]
        exact wellFormed_apply h.wellFormed roomOp
      · -- without a tick, the first frame is the furthest the room can get
        rw [htended.room]
        rcases (change_apply h.wellFormed roomOp).nextFrame_of_ne_tick h.wellFormed htick with
          hnext | ⟨-, hfirst⟩
        · rw [hnext]
          exact h.fresh
        · exact Or.inr hfirst
      · rcases htended.ticker with ⟨-, hsame⟩ | ⟨-, hnone⟩
        · exact hsame.trans h.ticker
        · exact hnone

/-- The ticker of a running room starts, at the first frame. -/
theorem Waiting.spawnTicker (h : Waiting s) (hrunning : s.room.phase = .running) (t draw : Nat) :
    (s.spawnTicker t draw).1 = true ∧ Active (s.spawnTicker t draw).2 ∧
      (s.spawnTicker t draw).2.room.nextFrame = some 0 := by
  have hfirst : s.room.nextFrame = some 0 :=
    h.fresh.resolve_left (h.wellFormed.nextFrame_ne_none hrunning)
  have hspawn : s.spawnTicker t draw = (true, { s with
      tickerStarted := true
      ticker := if s.stopped then none else some (Schedule.start s.room.config.tick t draw) }) := by
    rw [Slot.spawnTicker, h.started]
    rfl
  rw [hspawn]
  refine ⟨rfl, ⟨h.wellFormed, ?_, rfl, ?_⟩, hfirst⟩
  · show s.room.nextFrame ≠ none
    rw [hfirst]
    exact Option.some_ne_none 0
  · show s.stopped = (if s.stopped then none else some _).isNone
    cases s.stopped <;> rfl

/-! ## The task -/

/-- **The tick task at one moment**, when the given frames have been sent. They are counted up from
0, and there are no more than the room has.

While time passes, the room is ticked; every tick that answers a frame sends it to the entries,
which are the same all the time, and a ticker that is not stopped has got an answer from each tick.
Ticks are not put off: as long as the slot is not stopped, its ticker waits, and then only for a
time that has not come yet. The last frame of the room is the last one that is sent; with it the
slot is stopped, and the room closed.

Once the slot is stopped, nothing is sent any more, and the ticker is never started again. -/
structure Task (encoder : Encoder) (sent : List Firing) (s : Slot) : Prop where
  numbered : ∃ k ≤ s.room.config.maxFrames, s.room.nextFrame = some k ∧
    sent.map Firing.frame = (List.range k).map UInt32.ofNat
  delivers : ∀ now target, ∃ n,
    (s.runTicker encoder now target).2.room = s.room.afterTicks n ∧
      (∀ k, (s.room.afterTicks k).ready = s.room.ready) ∧
      List.Forall₂ (Carries encoder s.room.ready) (s.room.ticked n)
        (s.runTicker encoder now target).1 ∧
      ((s.runTicker encoder now target).2.stopped = false →
        n = (s.runTicker encoder now target).1.length)
  waits : s.stopped = false → s.ticker ≠ none ∧ ∀ now target, now ≤ target → ∀ schedule,
    (s.runTicker encoder now target).2.ticker = some schedule →
      target < Schedule.wholeMs schedule.next
  exhausts : ∀ now target i, i < (s.runTicker encoder now target).1.length →
    sent.length + i + 1 = s.room.config.maxFrames →
      (s.runTicker encoder now target).1.length = i + 1 ∧
        (s.runTicker encoder now target).2.stopped = true ∧
        (s.runTicker encoder now target).2.room.phase = .closed
  silent : s.stopped = true → ∀ later, sentFrames (run encoder s later).1 = [] ∧
    (run encoder s later).2.stopped = true
  single : ∀ t draw, s.spawnTicker t draw = (false, s)

/-- An active slot that is stopped has no ticker any more. -/
theorem Active.ticker_eq_none (h : Active s) (hstopped : s.stopped = true) : s.ticker = none := by
  have hends := h.ends
  rw [hstopped] at hends
  exact Option.isNone_iff_eq_none.mp hends.symm

/-- A room that has broadcast all its frames is closed. -/
theorem Active.closed_of_exhausted (h : Active s)
    (hend : s.room.nextFrame = some s.room.config.maxFrames) : s.room.phase = .closed := by
  cases hphase : s.room.phase with
  | created => exact absurd (h.wellFormed.not_started (Or.inl hphase)) h.begun
  | waitingReady => exact absurd (h.wellFormed.not_started (Or.inr hphase)) h.begun
  | running =>
    obtain ⟨frame, hnext, hlt⟩ := h.wellFormed.in_range hphase
    rw [hend] at hnext
    cases hnext
    exact absurd hlt (Nat.lt_irrefl _)
  | closed => rfl

/-- **The frame that uses up the room** is the last one, and stops the slot. -/
theorem Active.exhausts (h : Active s) {k i : Nat} (hnext : s.room.nextFrame = some k)
    (hi : i < (s.runTicker encoder now target).1.length)
    (hlast : k + i + 1 = s.room.config.maxFrames) :
    (s.runTicker encoder now target).1.length = i + 1 ∧
      (s.runTicker encoder now target).2.stopped = true ∧
      (s.runTicker encoder now target).2.room.phase = .closed := by
  obtain ⟨n, hcounts⟩ := runTicker_counts h.wellFormed encoder now target
  have hlength := hcounts.length_eq
  have hactive := h.runTicker encoder now target
  -- no frame can come behind it
  have hbound : k + n ≤ s.room.config.maxFrames := by
    have hle := (hcounts.bounded (by omega)).2
    rwa [hnext, Option.getD_some] at hle
  have hn : n = i + 1 := by omega
  have hconfig : (s.runTicker encoder now target).2.room.config = s.room.config := by
    obtain ⟨m, hroom, -⟩ := runTicker_spec encoder s now target
    rw [hroom]
    exact run_config h.wellFormed _
  have hend : (s.runTicker encoder now target).2.room.nextFrame =
      some s.room.config.maxFrames := by
    rw [hcounts.next, hnext, Option.map_some, hn, ← hlast, Nat.add_assoc]
  refine ⟨hlength.trans hn, ?_, hactive.closed_of_exhausted (by rw [hconfig]; exact hend)⟩
  cases hticker : s.ticker with
  | none =>
    -- without a ticker nothing is sent
    simp only [Slot.runTicker, hticker] at hi
    exact absurd hi (Nat.not_lt_zero i)
  | some schedule =>
    simp only [Slot.runTicker, hticker] at hi hend ⊢
    exact runSchedule_exhausted h.wellFormed (List.ne_nil_of_length_pos (by omega)) hend

theorem Active.task (h : Active s) {sent : List Firing} {k : Nat}
    (hle : k ≤ s.room.config.maxFrames) (hnext : s.room.nextFrame = some k)
    (hsent : sent.map Firing.frame = (List.range k).map UInt32.ofNat) : Task encoder sent s where
  numbered := ⟨k, hle, hnext, hsent⟩
  delivers := by
    intro now target
    have hentries : ∀ k, (s.room.afterTicks k).ready = s.room.ready :=
      fun k => (afterTicks_spec h.wellFormed k).2
    obtain ⟨n, hroom, hcarries, hgoes⟩ := runTicker_carries h.wellFormed encoder now target
    exact ⟨n, hroom, hentries, hcarries, hgoes⟩
  waits := by
    intro hgoes
    have hticker : s.ticker ≠ none := by
      intro hnone
      have hends := h.ends
      rw [hgoes, hnone] at hends
      cases hends
    refine ⟨hticker, ?_⟩
    intro now target hnow next hnext
    obtain ⟨schedule, hschedule⟩ := Option.ne_none_iff_exists'.mp hticker
    simp only [Slot.runTicker, hschedule] at hnext
    exact runSchedule_due hnow hnext
  exhausts := by
    intro now target i hi hlast
    have hlength := congrArg List.length hsent
    rw [List.length_map, List.length_map, List.length_range] at hlength
    rw [hlength] at hlast
    exact h.exhausts hnext hi hlast
  silent := fun hstopped => silent_run hstopped (h.ticker_eq_none hstopped)
  single := h.spawnTicker

/-- **The tick task of a room**, from the moment the ticker of its slot is started in a running
room, under whatever settings, with whatever number it draws, for whatever is done to the slot from
then on and however late time is told: at any moment the frames that have been sent are those from 0
on, each tick sends its frame to the entries of the room, the last frame stops the slot, a stopped
slot sends nothing, and the ticker is not started again. -/
theorem tick_task (encoder : Encoder) (id : RoomId) (c : BattleConfig) (stopped : Bool)
    (before : List Op) (hbefore : ∀ op ∈ before, ¬op.Ticks)
    (hrunning : (run encoder (ofRoom (Room.new id c) stopped) before).2.room.phase = .running)
    (t draw : Nat) (ops : List Op) (hops : ∀ op ∈ ops, op ≠ .onRoom .tick) :
    let spawned := (run encoder (ofRoom (Room.new id c) stopped) before).2.spawnTicker t draw
    spawned.1 = true ∧
      Task encoder (sentFrames (run encoder spawned.2 ops).1) (run encoder spawned.2 ops).2 := by
  intro spawned
  have hwaiting : Waiting (run encoder (ofRoom (Room.new id c) stopped) before).2 :=
    (waiting_ofRoom id c stopped).run hbefore
  obtain ⟨hspawned, hactive, hfirst⟩ := hwaiting.spawnTicker hrunning t draw
  obtain ⟨hactive', hconfig, n, hcounts⟩ := hactive.run encoder hops
  -- the frames are counted from the first one
  have hle : n ≤ (run encoder spawned.2 ops).2.room.config.maxFrames := by
    rw [hconfig]
    by_cases hn : n = 0
    · omega
    · have hbound := (hcounts.bounded hn).2
      rw [hfirst, Option.getD_some, Nat.zero_add] at hbound
      exact hbound
  have hnext : (run encoder spawned.2 ops).2.room.nextFrame = some n := by
    rw [hcounts.next, hfirst, Option.map_some, Nat.zero_add]
  have hsent : (sentFrames (run encoder spawned.2 ops).1).map Firing.frame =
      (List.range n).map UInt32.ofNat := by
    rw [hcounts.frames, hfirst, Option.getD_some, List.range_eq_range']
  exact ⟨hspawned, hactive'.task hle hnext hsent⟩

/-- A room of two players with three frames. -/
def pairSlot : Slot :=
  ofRoom (Room.new ⟨10001⟩ { BattleConfig.standard with maxPlayers := 2, maxFrames := 3 }) false

/-- The two players join and become ready. -/
def pairReady : List Op :=
  [.onRoom (.join ⟨101⟩), .onRoom (.join ⟨102⟩), .ready ⟨101⟩ ⟨11⟩ 0, .ready ⟨102⟩ ⟨12⟩ 0]

/-- After one frame player 102 moves to another connection, after another one player 101 leaves, and
somebody wants to start the ticker again. The last two ticks come late. -/
def pairPlay : List Op :=
  [.advance 0 (40 * millisecond), .rebind ⟨102⟩ ⟨13⟩, .advance (80 * millisecond) (80 * millisecond),
    .disconnect ⟨101⟩, .spawnTicker (90 * millisecond) 0,
    .advance (500 * millisecond) (500 * millisecond)]

/-- The first tick is put off by 1.5 ms. Every frame goes where the players are by then, and after
the third one the slot is silent. -/
theorem tick_task_pair :
    let spawned := ((run .standard pairSlot pairReady).2.spawnTicker 0 1500).2
    let answers := (run .standard spawned pairPlay).1
    let slot := (run .standard spawned pairPlay).2
    (∀ op ∈ pairReady, ¬op.Ticks) ∧ (run .standard pairSlot pairReady).2.room.phase = .running ∧
      (∀ op ∈ pairPlay, op ≠ .onRoom .tick) ∧
      (sentFrames answers).map Firing.frame = [0, 1, 2] ∧
      (sentFrames answers).map (fun f => f.sent.map Delivery.conn) =
        [[⟨11⟩, ⟨12⟩], [⟨11⟩, ⟨13⟩], [⟨13⟩]] ∧
      ∀ later, sentFrames (run .standard slot later).1 = [] := by
  intro spawned answers slot
  have hready : ∀ op ∈ pairReady, ¬op.Ticks := by
    simp [pairReady, Op.Ticks]
  have hrunning : (run .standard pairSlot pairReady).2.room.phase = .running := by
    decide +kernel
  have hplay : ∀ op ∈ pairPlay, op ≠ .onRoom .tick := by
    decide +kernel
  obtain ⟨-, htask⟩ := tick_task .standard ⟨10001⟩
    { BattleConfig.standard with maxPlayers := 2, maxFrames := 3 } false pairReady hready hrunning 0
    1500 pairPlay hplay
  have hstopped : slot.stopped = true := by
    decide +kernel
  refine ⟨hready, hrunning, hplay, by decide +kernel, by decide +kernel, ?_⟩
  intro later
  exact (htask.silent hstopped later).1

end Slot

end Room

end FrameSync
