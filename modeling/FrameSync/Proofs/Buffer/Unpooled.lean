import FrameSync.Proofs.Buffer.Conservation

/-!
# A pool without classes

The pool without classes has bounds that no length meets: its least length is 2 and its greatest 0.
Taking a buffer back looks at both bounds, so no buffer is of a class (`hasClass_unpooled`).
Rounding up looks at the greatest first, and a request of no bytes at all does not exceed that; it
is then rounded up to the least length, a class that was never built (`classFor_unpooled`).

So every request of at least one byte goes past the pool (`Bypasses`), and a request of none gets a
new buffer of two bytes. `unpooled_exact_iff` says so after any history, with what the counters
show.
-/

set_option autoImplicit false

namespace FrameSync.Buffer.Pool

variable {p : Pool}

/-- A request goes past the pool: it has no class, the buffer is as long as was asked for, and it is
counted as served outside all classes. -/
structure Bypasses (p : Pool) (size : Nat) : Prop where
  unclassed : p.classFor size = none
  exact : (p.get size).1.length = size
  counted : (p.get size).2.stats = { p.stats with oversize := p.stats.oversize + 1 }

/-! ## The two bounds -/

theorem hasClass_unpooled (length : Nat) : unpooled.hasClass length = false := by
  rw [Bool.eq_false_iff, ne_eq, hasClass_iff, lengths, mem_classLengths]
  rintro ⟨hlower, hupper, -⟩
  exact Nat.not_succ_le_zero 1 (Nat.le_trans hlower hupper)

theorem classFor_unpooled (size : Nat) :
    unpooled.classFor size = if size = 0 then some 2 else none := by
  cases size with
  | zero => rfl
  | succ n => rfl

/-! ## Every move -/

section Classless

variable (h : SameClasses unpooled p)
include h

theorem SameClasses.queue_eq_nil (c : Nat) : p.queue c = [] := by
  rw [queue, h.hasClass, hasClass_unpooled]
  rfl

/-- **A returned buffer** is dropped, whatever its length. -/
theorem SameClasses.release_eq (buffer : Bytes) : p.release buffer = (.untracked, p) := by
  rw [release, h.hasClass, hasClass_unpooled]
  rfl

/-- **A buffer that is handed out** is new. -/
theorem SameClasses.get_fst_eq (size : Nat) :
    (p.get size).1 = if size = 0 then zeros 2 else zeros size := by
  rw [get_fst, h.classFor, classFor_unpooled]
  split
  · rw [Option.elim_some, h.queue_eq_nil]
    rfl
  · rfl

theorem SameClasses.stats_get_eq (size : Nat) : (p.get size).2.stats =
    if size = 0 then { p.stats with allocated := p.stats.allocated + 1 }
    else { p.stats with oversize := p.stats.oversize + 1 } := by
  rw [stats_get, h.classFor, classFor_unpooled]
  by_cases hsize : size = 0
  · rw [if_pos hsize, if_pos hsize, Option.elim_some, h.queue_eq_nil, if_pos rfl]
  · rw [if_neg hsize, if_neg hsize, Option.elim_none]

/-- **A request goes past the pool** exactly if it is for at least one byte. -/
theorem SameClasses.bypasses_iff (size : Nat) : p.Bypasses size ↔ size ≠ 0 := by
  constructor
  · rintro ⟨hclass, -, -⟩ rfl
    rw [h.classFor] at hclass
    cases hclass
  · intro hsize
    refine ⟨?_, ?_, ?_⟩
    · rw [h.classFor, classFor_unpooled, if_neg hsize]
    · rw [h.get_fst_eq, if_neg hsize, length_zeros]
    · rw [h.stats_get_eq, if_neg hsize]

/-- Requests of no bytes are counted apart from all others, and nothing else is counted. -/
theorem SameClasses.stats_apply_eq (op : Op) :
    (p.apply op).2.stats.reused = p.stats.reused ∧
      (p.apply op).2.stats.allocated = p.stats.allocated + [op].count (.get 0) := by
  cases op with
  | get size =>
    show (p.get size).2.stats.reused = _ ∧ (p.get size).2.stats.allocated = _
    rw [h.stats_get_eq]
    by_cases hsize : size = 0
    · subst hsize
      exact ⟨rfl, rfl⟩
    · have hother : Op.get size ≠ .get 0 := fun heq => hsize (Op.get.inj heq)
      rw [if_neg hsize, List.count_singleton, beq_eq_false_iff_ne.mpr hother]
      exact ⟨rfl, rfl⟩
  | release buffer =>
    show (p.release buffer).2.stats.reused = _ ∧ (p.release buffer).2.stats.allocated = _
    rw [h.release_eq]
    exact ⟨rfl, rfl⟩
  | clear => exact ⟨rfl, rfl⟩

end Classless

/-! ## Every history -/

theorem stats_run_unpooled (ops : List Op) :
    (unpooled.run ops).2.stats.reused = 0 ∧
      (unpooled.run ops).2.stats.allocated = ops.count (.get 0) := by
  induction ops using List.reverseRecOn with
  | nil => exact ⟨rfl, rfl⟩
  | append_singleton ops op ih =>
    obtain ⟨hreused, hallocated⟩ := (sameClasses_run unpooled ops).stats_apply_eq op
    rw [run_snoc, hreused, hallocated, ih.1, ih.2, List.count_append]
    exact ⟨rfl, rfl⟩

/-- **A pool without classes is exact, except for requests of no bytes.** After any history:

- a request goes past the pool (it has no class, gets a buffer of exactly its size and is counted so)
  if and only if it is for at least one byte;
- one for no bytes is rounded up to a class of two, and gets a new buffer of two zeros;
- a returned buffer is dropped as one of no class;
- no buffer is used again; what counts as newly made for a class are the requests for no bytes, so
  there is none if and only if nobody has asked for that; all other requests count as past the pool. -/
theorem unpooled_exact_iff (ops : List Op) :
    let p := (unpooled.run ops).2
    (∀ size, p.Bypasses size ↔ size ≠ 0) ∧
    (p.classFor 0 = some 2 ∧ (p.get 0).1 = [0, 0] ∧
      (p.get 0).2.stats = { p.stats with allocated := p.stats.allocated + 1 }) ∧
    (∀ buffer, p.release buffer = (.untracked, p)) ∧
    p.stats.reused = 0 ∧
    p.stats.allocated = ops.count (.get 0) ∧
    (p.stats.allocated = 0 ↔ .get 0 ∉ ops) ∧
    p.stats.allocated + p.stats.oversize = ops.countP Op.isGet := by
  intro p
  have hclasses : SameClasses unpooled p := sameClasses_run unpooled ops
  obtain ⟨hreused, hallocated⟩ := stats_run_unpooled ops
  refine ⟨hclasses.bypasses_iff, ⟨?_, ?_, ?_⟩, hclasses.release_eq, hreused, hallocated, ?_, ?_⟩
  · exact hclasses.classFor 0
  · exact hclasses.get_fst_eq 0
  · exact hclasses.stats_get_eq 0
  · rw [hallocated, List.count_eq_zero]
  · have hserved := served_run unpooled ops
    rw [PoolStats.served, hreused, Nat.zero_add] at hserved
    exact hserved.trans (Nat.zero_add _)

/-- **A request for nothing gets something:** two bytes, of a class that there is not. -/
theorem unpooled_zero_rounded :
    unpooled.lengths = [] ∧ unpooled.classFor 0 = some 2 ∧ (unpooled.get 0).1 = [0, 0] ∧
      (unpooled.get 0).2.stats = ⟨0, 1, 0⟩ ∧
      ¬∀ ops size buffer,
        let p := (unpooled.run ops).2
        p.Bypasses size ∧ (p.release buffer).1 = .untracked ∧ p.stats.reused = 0 ∧
          p.stats.allocated = 0 := by
  refine ⟨?_, rfl, rfl, rfl, fun hexact => ?_⟩
  · refine List.eq_nil_iff_forall_not_mem.mpr fun c hlisted => ?_
    rw [← hasClass_iff, hasClass_unpooled] at hlisted
    cases hlisted
  · have hclass := (hexact [] 0 []).1.unclassed
    cases hclass

end FrameSync.Buffer.Pool
