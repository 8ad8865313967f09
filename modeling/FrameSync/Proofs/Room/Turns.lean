import FrameSync.Proofs.Room.Ticking

/-!
# The frames of one room

A ticker counts the frames of its room up from the next one (`runTicker_counts`). Tickers take
turns, and what their rooms send is one list; but the turns keep the order of each room, so the
firings of one room among those of a registry are the firings of its ticker (`firings_advance`).
-/

set_option autoImplicit false

namespace FrameSync

open Wire Tick

/-! ## Frames in order -/

namespace Room.Slot

variable {encoder : Encoder} {s : Slot} {schedule : Schedule} {now target : Nat}

/-- The firings carry `n` frames from the next one on, counted up, and the room then has the frame
after them next. They are frames that the room has. -/
structure Counts (r r' : Room) (firings : List Firing) (n : Nat) : Prop where
  frames : firings.map Firing.frame =
    (List.range' (r.nextFrame.getD 0) n).map UInt32.ofNat
  next : r'.nextFrame = r.nextFrame.map (· + n)
  bounded : n ≠ 0 → r.nextFrame ≠ none ∧ r.nextFrame.getD 0 + n ≤ r.config.maxFrames

theorem counts_none {r : Room} : Counts r r [] 0 where
  frames := rfl
  next := by simp
  bounded := fun h => absurd rfl h

/-- Nobody counts further than there are frames. -/
theorem Counts.le_maxFrames {r r' : Room} {firings : List Firing} {n : Nat}
    (h : Counts r r' firings n) (hconfig : r'.config = r.config)
    (hle : r.nextFrame.getD 0 ≤ r.config.maxFrames) :
    r'.nextFrame.getD 0 ≤ r'.config.maxFrames := by
  rw [h.next, hconfig]
  cases hnext : r.nextFrame with
  | none => exact Nat.zero_le _
  | some k =>
    rw [Option.map_some, Option.getD_some]
    rw [hnext, Option.getD_some] at hle
    by_cases hn : n = 0
    · omega
    · have hbound := (h.bounded hn).2
      rwa [hnext, Option.getD_some] at hbound

/-- A tick that answers a frame is one of a running room, and its frame is the next one. -/
theorem tick_eq_some {r : Room} {out : TickOutput} (h : r.WellFormed) (hout : r.tick.1 = some out) :
    ∃ frame, r.nextFrame = some frame ∧ frame < r.config.maxFrames ∧
      out.broadcast.frame = UInt32.ofNat frame ∧ out.recipients = r.recipients ∧
      r.tick.2 = r.advanceFrom frame := by
  have hrunning : r.phase = .running := running_of_tick hout
  obtain ⟨frame, hnext, hframe⟩ := h.in_range hrunning
  rw [tick_of_running hrunning hnext hframe] at hout ⊢
  cases hout
  exact ⟨frame, hnext, hframe, rfl, rfl, rfl⟩

/-- A tick that answers none leaves the room as it is. -/
theorem tick_eq_none {r : Room} (h : r.WellFormed) (hout : r.tick.1 = none) : r.tick.2 = r := by
  by_cases hrunning : r.phase = .running
  · exact absurd hout (tick_ne_none h hrunning)
  · rw [tick_of_not_running hrunning]

/-- **A firing** carries its frame to everybody who is ready. -/
theorem FiredFrom.broadcast {r : Room} {n : Nat} {f : Firing} (h : r.WellFormed)
    (hf : FiredFrom .standard r n f) :
    ∃ b : FrameBroadcast, b.frame = f.frame ∧
      f.sent = Delivery.toEach r.recipients BattleCommand.frame.toByte (encodeBody b) := by
  obtain ⟨k, -, out, hout, -, hframe, hsent⟩ := hf
  have hk : (r.afterTicks k).WellFormed := wellFormed_run h _
  obtain ⟨-, -, -, -, hrecipients, -⟩ := tick_eq_some hk hout
  refine ⟨out.broadcast, hframe.symm, ?_⟩
  rw [hsent, TickOutput.deliveries, hrecipients, recipients, recipients, (afterTicks_spec h k).2]
  rfl

/-- One frame more in front of what is counted from the next room on. -/
theorem Counts.cons {r r' : Room} {firings : List Firing} {n frame : Nat} {f : Firing}
    (hnext : r.nextFrame = some frame) (hframe : frame < r.config.maxFrames)
    (hf : f.frame = UInt32.ofNat frame) (h : Counts (r.advanceFrom frame) r' firings n) :
    Counts r r' (f :: firings) (n + 1) := by
  obtain ⟨hframes, hafter, hbounded⟩ := h
  rw [advanceFrom_nextFrame] at hframes hafter hbounded
  refine ⟨?_, ?_, ?_⟩
  · rw [List.map_cons, hframes, hf, hnext, Option.getD_some, Option.getD_some, List.range'_succ,
      List.map_cons]
  · rw [hafter, hnext, Option.map_some, Option.map_some]
    congr 1
    omega
  · intro _
    rw [hnext, Option.getD_some]
    refine ⟨nofun, ?_⟩
    by_cases hn : n = 0
    · omega
    · have hle := (hbounded hn).2
      rw [Option.getD_some, advanceFrom_config] at hle
      omega

/-- **A ticker counts the frames of its room up.** -/
theorem runSchedule_counts (h : s.room.WellFormed) :
    ∃ n, Counts s.room (s.runSchedule encoder schedule now target).2.room
      (s.runSchedule encoder schedule now target).1 n := by
  fun_induction runSchedule encoder s schedule now target with
  | case1 s schedule now hdue fired ticked s' hnone =>
    -- a tick that answers nothing leaves the room as it is
    have hroom : ticked.2 = s.room := tick_eq_none h hnone
    exact ⟨0, show Counts s.room ticked.2 [] 0 from hroom ▸ counts_none⟩
  | case2 s schedule now hdue fired ticked s₁ out hout firing s₂ hlast =>
    obtain ⟨frame, hnext, hframe, hnumber, -, hroom⟩ := tick_eq_some h hout
    refine ⟨1, Counts.cons hnext hframe hnumber ?_⟩
    show Counts (s.room.advanceFrom frame) ticked.2 [] 0
    rw [show ticked.2 = s.room.advanceFrom frame from hroom]
    exact counts_none
  | case3 s schedule now hdue fired ticked s₁ out hout firing s₂ hlast later ih =>
    obtain ⟨frame, hnext, hframe, hnumber, -, hroom⟩ := tick_eq_some h hout
    obtain ⟨n, hcounts⟩ := ih (wellFormed_tick h)
    refine ⟨n + 1, Counts.cons hnext hframe hnumber ?_⟩
    rw [← hroom]
    exact hcounts
  | case4 s schedule now hwaits => exact ⟨0, counts_none⟩

theorem runTicker_counts (h : s.room.WellFormed) (encoder : Encoder) (now target : Nat) :
    ∃ n, Counts s.room (s.runTicker encoder now target).2.room
      (s.runTicker encoder now target).1 n := by
  rw [runTicker]
  cases s.ticker with
  | none => exact ⟨0, counts_none⟩
  | some schedule => exact runSchedule_counts h

/-- A ticker does not start another one. -/
theorem runSchedule_tickerStarted :
    (s.runSchedule encoder schedule now target).2.tickerStarted = s.tickerStarted := by
  fun_induction runSchedule encoder s schedule now target with
  | case3 s schedule now hdue fired ticked s₁ out hout firing s₂ hlast later ih => exact ih
  | _ => rfl

theorem runTicker_ticker (s : Slot) (encoder : Encoder) (now target : Nat) :
    (s.runTicker encoder now target).2.tickerStarted = s.tickerStarted ∧
      ((s.runTicker encoder now target).2.ticker.isSome = true → s.ticker.isSome = true) := by
  rw [runTicker]
  cases hticker : s.ticker with
  | none => exact ⟨rfl, fun h => hticker ▸ h⟩
  | some schedule => exact ⟨runSchedule_tickerStarted, fun _ => rfl⟩

end Room.Slot

/-! ## Registries -/

/-- The entries of a table under one key. -/
theorem Table.filter_entries {κ ν : Type} [Key κ] [DecidableEq κ] (t : Table κ ν) (k : κ) :
    (t.entries.filter fun e => e.1 = k) = ((t.get? k).map fun v => (k, v)).toList := by
  obtain ⟨l, hl⟩ := t
  unfold get?
  simp only
  induction l with
  | nil => rfl
  | cons e rest ih =>
    rw [List.pairwise_cons] at hl
    rw [lookup]
    by_cases hk : e.1 = k
    · -- the keys behind it are greater
      have hrest : rest.filter (fun e => e.1 = k) = [] := by
        refine List.filter_eq_nil_iff.mpr fun x hx => ?_
        have hlt := hl.1 x hx
        rw [decide_eq_true_eq]
        intro heq
        rw [hk, heq] at hlt
        exact Nat.lt_irrefl _ hlt
      rw [List.filter_cons, if_pos (decide_eq_true hk), hrest, if_pos (congrArg Key.code hk), ← hk]
      rfl
    · rw [List.filter_cons, if_neg (by simpa using hk), ih hl.2,
        if_neg fun hcode => hk (Key.code_inj _ _ hcode)]

/-- Of what several rooms have sent, one room has sent its own. -/
theorem Room.filter_flatMap_firings {α : Type} {l : List α} {room : α → RoomId}
    {sent : α → List Firing} {id : RoomId} (h : ∀ a ∈ l, ∀ f ∈ sent a, f.room = room a) :
    ((l.flatMap sent).filter fun f => f.room = id) =
      (l.filter fun a => room a = id).flatMap sent := by
  induction l with
  | nil => rfl
  | cons a rest ih =>
    have hrest := ih fun b hb => h b (List.mem_cons_of_mem a hb)
    have hown := h a List.mem_cons_self
    rw [List.flatMap_cons, List.filter_append, hrest, List.filter_cons]
    -- what it has sent is all of the room, or none of it
    by_cases ha : room a = id
    · have hall : (sent a).filter (fun f => f.room = id) = sent a :=
        List.filter_eq_self.mpr fun f hf => decide_eq_true ((hown f hf).trans ha)
      rw [hall, if_pos (decide_eq_true ha), List.flatMap_cons]
    · have hnone : (sent a).filter (fun f => f.room = id) = [] := by
        refine List.filter_eq_nil_iff.mpr fun f hf => ?_
        rw [decide_eq_true_eq, hown f hf]
        exact ha
      rw [hnone, if_neg (by simpa using ha), List.nil_append]

namespace Registry

variable {encoder : Encoder} {r : Registry} {now target : Nat} {id : RoomId} {slot : Room.Slot}

/-- Every firing of a ticker is of its room. -/
theorem room_of_mem_runTicker (hwell : slot.room.WellFormed) {f : Room.Firing}
    (hf : f ∈ (slot.runTicker encoder now target).1) : f.room = slot.room.id := by
  obtain ⟨n, -, hfired⟩ := Room.Slot.runTicker_spec encoder slot now target
  exact ((hfired f hf).sent hwell).2.1

/-- **The firings of one room** among those of a registry are those of its ticker, in its order. -/
theorem firings_advance
    (htracked : ∀ id slot, r.rooms.get? id = some slot →
      slot.room.WellFormed ∧ slot.room.id = id) :
    ((r.advance encoder now target).1.filter fun f => f.room = id) =
      match r.rooms.get? id with
      | none => []
      | some slot => (slot.runTicker encoder now target).1 := by
  have hroom : ∀ e ∈ r.rooms.entries, ∀ f ∈ (e.2.runTicker encoder now target).1,
      f.room = e.1 := by
    intro e he f hf
    obtain ⟨hwell, hid⟩ := htracked e.1 e.2 (Table.get?_eq_some_iff_mem.mpr he)
    exact (room_of_mem_runTicker hwell hf).trans hid
  have hturns : ((r.advance encoder now target).1.filter fun f => f.room = id) =
      (r.firings encoder now target).filter fun f => f.room = id := Room.filter_weave _ _ id
  rw [hturns, firings, Room.filter_flatMap_firings hroom, Table.filter_entries]
  cases r.rooms.get? id with
  | none => rfl
  | some slot => exact List.flatMap_singleton _ _

end Registry

end FrameSync
