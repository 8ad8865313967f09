import FrameSync.Proofs.Room.History

/-!
# Who is a member and who is ready

What a room has to do with the rest of the server is its members, the ready entries, and whether it
is open. For each of them this module says which operations can have brought about what is seen
after one operation: a member was one before or has just joined, an entry was there before or has
just been set, and an open room was open before. Ticks touch none of them.
-/

set_option autoImplicit false

namespace FrameSync.Room

open Wire

/-- The operation puts the entry among the ready ones. -/
inductive Op.Sets : Op → ReadyEntry → Prop where
  | ready (player : PlayerId) (conn : ConnId) (now : Nat) :
      Op.Sets (.ready player conn now) ⟨player, conn⟩
  | rebind (player : PlayerId) (conn : ConnId) : Op.Sets (.rebind player conn) ⟨player, conn⟩

/-- The operation says where a player's frames go, or that they go nowhere. -/
inductive Op.Redirects : Op → PlayerId → Prop where
  | ready (player : PlayerId) (conn : ConnId) (now : Nat) :
      Op.Redirects (.ready player conn now) player
  | rebind (player : PlayerId) (conn : ConnId) : Op.Redirects (.rebind player conn) player
  | disconnect (player : PlayerId) : Op.Redirects (.disconnect player) player

variable {r r' : Room} {op : Op} {answer : Answer} {p player : PlayerId} {e : ReadyEntry}

/-- **A room is never opened again.** -/
theorem Change.open_before (h : Change r op answer r') (hopen : r'.phase ≠ .closed) :
    r.phase ≠ .closed := by
  intro hclosed
  cases h with
  | refused | rejoined | idle | rebound | left => exact hopen hclosed
  | joined _ _ hphase | recorded _ _ _ hphase | ticked _ hphase | checked _ _ _ _ hphase
  | leftLast _ hphase =>
    rw [hclosed] at hphase
    cases hphase
  | enrolled _ _ _ _ hphase => exact hphase hclosed
  | started _ _ _ _ _ hcomplete =>
    have hphase : r.phase = .waitingReady := hcomplete.1
    rw [hclosed] at hphase
    cases hphase
  | closed => exact hopen (close_phase r)

/-- **A member** was one before, or has just joined. -/
theorem Change.mem_members (h : Change r op answer r') (hp : p ∈ r'.members) :
    p ∈ r.members ∨ op = .join p := by
  cases h with
  | joined player _ _ _ =>
    rcases mem_insertMember.mp hp with rfl | hp
    · exact Or.inr rfl
    · exact Or.inl hp
  | ticked frame => exact Or.inl (advanceFrom_members r frame ▸ hp)
  | leftLast player => exact Or.inl (close_members (r.withoutEntry player) ▸ hp)
  | closed => exact Or.inl (close_members r ▸ hp)
  | _ => exact Or.inl hp

/-- **An entry** was there before and is of a player the operation does not redirect, or it has
just been set. -/
theorem Change.mem_ready (h : Change r op answer r') (hnew : ∀ error, answer ≠ .refused error)
    (he : e ∈ r'.ready) : (e ∈ r.ready ∧ ¬op.Redirects e.player) ∨ op.Sets e := by
  cases h with
  | refused _ error => exact absurd rfl (hnew error)
  | rejoined | joined | recorded | idle | checked => exact Or.inl ⟨he, nofun⟩
  | enrolled player conn now | started player conn now =>
    -- the start of the battle leaves the entries alone
    rcases mem_ready_enrol he with rfl | ⟨hne, he⟩
    · exact Or.inr (.ready player conn now)
    · exact Or.inl ⟨he, fun h => hne (by cases h; rfl)⟩
  | rebound player conn =>
    rcases mem_moveEntry he with ⟨rfl, -⟩ | ⟨hne, he⟩
    · exact Or.inr (.rebind player conn)
    · exact Or.inl ⟨he, fun h => hne (by cases h; rfl)⟩
  | ticked frame =>
    rw [advanceFrom_ready] at he
    exact Or.inl ⟨he, nofun⟩
  | left player =>
    obtain ⟨he, hne⟩ := List.mem_filter.mp he
    exact Or.inl ⟨he, fun h => of_decide_eq_true hne (by cases h; rfl)⟩
  | leftLast player =>
    rw [close_ready] at he
    obtain ⟨he, hne⟩ := List.mem_filter.mp he
    exact Or.inl ⟨he, fun h => of_decide_eq_true hne (by cases h; rfl)⟩
  | closed =>
    rw [close_ready] at he
    exact Or.inl ⟨he, nofun⟩

/-- An entry was there before, or the operation is one that sets it. -/
theorem Change.mem_ready_or_sets (h : Change r op answer r') (he : e ∈ r'.ready) :
    e ∈ r.ready ∨ op.Sets e := by
  by_cases hrefused : ∃ error, answer = .refused error
  · -- what is refused may redirect a player in name, but changes nothing
    obtain ⟨error, rfl⟩ := hrefused
    cases h
    exact Or.inl he
  · exact (h.mem_ready (fun error heq => hrefused ⟨error, heq⟩) he).imp_left And.left

/-- Nobody is ready who is no member. -/
theorem WellFormed.length_ready_le (h : WellFormed r) : r.ready.length ≤ r.members.length := by
  have hle := (h.roster_nodup.subperm h.roster_subset).length_le
  rwa [roster, List.length_map] at hle

/-- **A full room that waits is not complete**, for the member that completes it starts the
battle. -/
theorem Change.incomplete (h : Change r op answer r') (hr : WellFormed r) (hr' : WellFormed r')
    (hwaits : r.phase = .waitingReady → r.ready.length < r.config.maxPlayers) :
    r'.phase = .waitingReady → r'.ready.length < r'.config.maxPlayers := by
  intro hphase
  cases h with
  | refused | rejoined | idle | checked | recorded => exact hwaits hphase
  | joined player hnew hcreated hplace =>
    -- who takes the last place is not ready yet
    exact Nat.lt_of_le_of_lt hr.length_ready_le hplace
  | enrolled player conn now outcome hopen hmember hnot =>
    have hle : (r.enrol player conn).ready.length ≤ r.config.maxPlayers :=
      Nat.le_trans hr'.length_ready_le hr'.members_le
    exact Nat.lt_of_le_of_ne hle fun heq => hnot ⟨hphase, heq⟩
  | started => cases hphase
  | rebound player conn =>
    rw [moveEntry, List.length_map]
    exact hwaits hphase
  | ticked frame =>
    have hnone := hr'.not_started (Or.inr hphase)
    rw [advanceFrom_nextFrame] at hnone
    cases hnone
  | left player => exact Nat.lt_of_le_of_lt (List.length_filter_le _ _) (hwaits hphase)
  | leftLast player =>
    rw [close_phase] at hphase
    cases hphase
  | closed =>
    rw [close_phase] at hphase
    cases hphase

/-- **After a history** the members are those before it and those that joined in it. -/
theorem mem_members_run (h : WellFormed r) {ops : List Op} (hp : p ∈ (run r ops).2.members) :
    p ∈ r.members ∨ .join p ∈ ops := by
  induction ops generalizing r with
  | nil => exact Or.inl hp
  | cons op rest ih =>
    rcases ih (wellFormed_apply h op) hp with hp | hrest
    · refine ((change_apply h op).mem_members hp).imp_right ?_
      rintro rfl
      exact List.mem_cons_self
    · exact Or.inr (List.mem_cons_of_mem op hrest)

/-- A room that is open after a history was open before it. -/
theorem run_open_before (h : WellFormed r) {ops : List Op}
    (hopen : (run r ops).2.phase ≠ .closed) : r.phase ≠ .closed := by
  induction ops generalizing r with
  | nil => exact hopen
  | cons op rest ih => exact (change_apply h op).open_before (ih (wellFormed_apply h op) hopen)

theorem incomplete_run (h : WellFormed r)
    (hwaits : r.phase = .waitingReady → r.ready.length < r.config.maxPlayers) (ops : List Op) :
    (run r ops).2.phase = .waitingReady →
      (run r ops).2.ready.length < (run r ops).2.config.maxPlayers := by
  induction ops generalizing r with
  | nil => exact hwaits
  | cons op rest ih =>
    have hr' := wellFormed_apply h op
    exact ih hr' ((change_apply h op).incomplete h hr' hwaits)

/-! ## Ticks -/

theorem Change.of_tick (h : Change r .tick answer r') :
    r'.members = r.members ∧ r'.ready = r.ready := by
  cases h with
  | refused | idle => exact ⟨rfl, rfl⟩
  | ticked frame => exact ⟨advanceFrom_members r frame, advanceFrom_ready r frame⟩

/-- The room after a number of ticks. -/
def afterTicks (r : Room) (n : Nat) : Room := (run r (List.replicate n .tick)).2

/-- What any number of ticks leaves alone. -/
theorem afterTicks_spec (h : WellFormed r) (n : Nat) :
    (r.afterTicks n).members = r.members ∧ (r.afterTicks n).ready = r.ready := by
  induction n generalizing r with
  | zero => exact ⟨rfl, rfl⟩
  | succ n ih =>
    obtain ⟨hmembers, hready⟩ := (change_apply h .tick).of_tick
    obtain ⟨hmembers', hready'⟩ := ih (wellFormed_apply h .tick)
    exact ⟨hmembers'.trans hmembers, hready'.trans hready⟩

end FrameSync.Room
