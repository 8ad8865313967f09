import FrameSync.Proofs.Room.Readiness
import FrameSync.Room.Registry

/-!
# What tickers send

A ticker does nothing to its room but tick it, and each of its firings is one of these ticks, with
the frame that the tick answered (`runSchedule_spec`). The firings of a whole registry are those of
its tickers: taking turns neither adds nor drops one (`mem_advance`).
-/

set_option autoImplicit false

namespace FrameSync

open Wire Tick

namespace Room.Slot

/-- A firing of a ticker that began with a room: after some ticks, one more answered a frame, and
that is what was sent. -/
def FiredFrom (encoder : Encoder) (r : Room) (n : Nat) (f : Firing) : Prop :=
  ∃ k < n, ∃ out, (r.afterTicks k).tick.1 = some out ∧ f.room = (r.afterTicks (k + 1)).id ∧
    f.frame = out.broadcast.frame ∧ f.sent = out.deliveries encoder

/-- **A ticker only ticks its room**, and sends what the ticks answer. -/
theorem runSchedule_spec (encoder : Encoder) (s : Slot) (schedule : Schedule) (now target : Nat) :
    ∃ n, (s.runSchedule encoder schedule now target).2.room = s.room.afterTicks n ∧
      ∀ f ∈ (s.runSchedule encoder schedule now target).1, FiredFrom encoder s.room n f := by
  fun_induction runSchedule encoder s schedule now target with
  | case1 s schedule now hdue fired ticked s' hnone =>
    -- the tick finds the room not running, and the ticker ends
    exact ⟨1, rfl, fun f hf => absurd hf List.not_mem_nil⟩
  | case2 s schedule now hdue fired ticked s₁ out hout firing s₂ hlast =>
    -- the last frame
    refine ⟨1, rfl, ?_⟩
    intro f hf
    rw [List.mem_singleton.mp hf]
    exact ⟨0, Nat.one_pos, out, hout, rfl, rfl, rfl⟩
  | case3 s schedule now hdue fired ticked s₁ out hout firing s₂ hlast later ih =>
    -- one frame, and then the ticks of the rest, counted from the room after it
    obtain ⟨n, hroom, hfired⟩ := ih
    refine ⟨n + 1, hroom, ?_⟩
    intro f hf
    rcases List.mem_cons.mp hf with rfl | hf
    · exact ⟨0, Nat.succ_pos n, out, hout, rfl, rfl, rfl⟩
    · obtain ⟨k, hk, out', hout', hid, hframe, hsent⟩ := hfired f hf
      exact ⟨k + 1, Nat.succ_lt_succ hk, out', hout', hid, hframe, hsent⟩
  | case4 s schedule now hwaits => exact ⟨0, rfl, fun f hf => absurd hf List.not_mem_nil⟩

theorem runTicker_spec (encoder : Encoder) (s : Slot) (now target : Nat) :
    ∃ n, (s.runTicker encoder now target).2.room = s.room.afterTicks n ∧
      ∀ f ∈ (s.runTicker encoder now target).1, FiredFrom encoder s.room n f := by
  rw [runTicker]
  cases s.ticker with
  | none => exact ⟨0, rfl, fun f hf => absurd hf List.not_mem_nil⟩
  | some schedule => exact runSchedule_spec encoder s schedule now target

/-- **A firing goes to the ready members**, in their order, or to nobody if the frame cannot be
written. -/
theorem FiredFrom.sent {encoder : Encoder} {r : Room} {n : Nat} {f : Firing} (h : WellFormed r)
    (hf : FiredFrom encoder r n f) :
    r.phase ≠ .closed ∧ f.room = r.id ∧
      (f.sent = [] ∨ f.sent.map Delivery.conn = r.recipients) := by
  obtain ⟨k, -, out, hout, hid, -, hsent⟩ := hf
  have hk : WellFormed (r.afterTicks k) := wellFormed_run h _
  -- A tick that answers a frame is one of a running room, whose entries are still those of `r`.
  have hrunning : (r.afterTicks k).phase = .running := running_of_tick hout
  have hopen : (r.afterTicks k).phase ≠ .closed := by
    rw [hrunning]
    decide
  refine ⟨run_open_before h hopen, hid.trans (run_id h _), ?_⟩
  · have hrecipients : out.recipients = r.recipients := by
      obtain ⟨frame, hnext, hframe⟩ := hk.in_range hrunning
      rw [tick_of_running hrunning hnext hframe] at hout
      rw [← Option.some.inj hout, recipients, recipients, (afterTicks_spec h k).2]
    rw [hsent, TickOutput.deliveries]
    cases encoder.encode out.broadcast with
    | error => exact Or.inl rfl
    | ok payload =>
      refine Or.inr ?_
      simp only [Delivery.toEach, List.map_map, Function.comp_def, List.map_id']
      exact hrecipients

end Room.Slot

namespace Registry

/-- **The firings of a registry** are those of the tickers of its rooms, whatever the rota. -/
theorem mem_advance {encoder : Encoder} {r : Registry} {now target : Nat} {f : Room.Firing} :
    f ∈ (r.advance encoder now target).1 ↔
      ∃ id s, r.rooms.get? id = some s ∧ f ∈ (s.runTicker encoder now target).1 := by
  have hturns : f ∈ (r.advance encoder now target).1 ↔ f ∈ r.firings encoder now target :=
    (Room.perm_weave _ _).mem_iff
  rw [hturns, firings, List.mem_flatMap]
  constructor
  · rintro ⟨e, he, hf⟩
    exact ⟨e.1, e.2, Table.get?_eq_some_iff_mem.mpr he, hf⟩
  · rintro ⟨id, s, hget, hf⟩
    exact ⟨(id, s), Table.get?_eq_some_iff_mem.mp hget, hf⟩

end Registry

end FrameSync
