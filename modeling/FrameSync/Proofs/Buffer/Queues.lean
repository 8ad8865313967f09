import FrameSync.Buffer.Pool

/-!
# The queues of a pool

What a history of gets and returns does to a pool, one class at a time. The layout stays as it was
built (`sameClasses_run`), and each move changes the queue of at most one class (`queue_get`,
`queue_release`, `queue_clear`).

From these: a queue holds buffers of the length of its class (`Filed.run`), so the length of a
buffer that is handed out follows from the request alone (`Filed.length_get`). Nothing is said here
of what the buffers hold; that is up to those who returned them.
-/

set_option autoImplicit false

namespace FrameSync.Buffer.Pool

variable {p q : Pool}

/-! ## The layout stays -/

/-- Two pools have the same classes: they start and end at the same length, and lie as far apart. -/
structure SameClasses (p q : Pool) : Prop where
  least : q.least = p.least
  greatest : q.greatest = p.greatest
  stepBits : q.stepBits = p.stepBits

namespace SameClasses

theorem refl (p : Pool) : SameClasses p p := ⟨rfl, rfl, rfl⟩

theorem trans {r : Pool} (h : SameClasses p q) (h' : SameClasses q r) : SameClasses p r :=
  ⟨h'.least.trans h.least, h'.greatest.trans h.greatest, h'.stepBits.trans h.stepBits⟩

theorem classFor (h : SameClasses p q) (size : Nat) : q.classFor size = p.classFor size := by
  rw [Pool.classFor, Pool.classFor, step, step, h.least, h.greatest, h.stepBits]

theorem hasClass (h : SameClasses p q) (length : Nat) : q.hasClass length = p.hasClass length := by
  rw [Pool.hasClass, Pool.hasClass, step, step, h.least, h.greatest, h.stepBits]

end SameClasses

theorem sameClasses_get (p : Pool) (size : Nat) : SameClasses p (p.get size).2 := by
  rw [get]
  split
  · exact ⟨rfl, rfl, rfl⟩
  · split <;> exact ⟨rfl, rfl, rfl⟩

theorem sameClasses_release (p : Pool) (buffer : Bytes) : SameClasses p (p.release buffer).2 := by
  rw [release]
  split
  · simp only
    split <;> exact ⟨rfl, rfl, rfl⟩
  · exact ⟨rfl, rfl, rfl⟩

theorem sameClasses_apply (p : Pool) (op : Op) : SameClasses p (p.apply op).2 := by
  cases op with
  | get size => exact p.sameClasses_get size
  | release buffer => exact p.sameClasses_release buffer
  | clear => exact ⟨rfl, rfl, rfl⟩

theorem sameClasses_run (p : Pool) (ops : List Op) : SameClasses p (p.run ops).2 := by
  induction ops generalizing p with
  | nil => exact .refl p
  | cons op ops ih => exact (p.sameClasses_apply op).trans (ih (p.apply op).2)

/-! ## The queues after each move -/

/-- A queue that has just been touched is the one that was put there. -/
theorem queue_touch {touched : Table Nat (List Bytes)} {length : Nat} {buffers : List Bytes}
    (stats : PoolStats) (htouched : touched = p.touched.insert length buffers)
    (hclass : p.hasClass length = true) (c : Nat) :
    ({ p with touched, stats } : Pool).queue c = if c = length then buffers else p.queue c := by
  have hget : touched.get? c = if c = length then some buffers else p.touched.get? c := by
    rw [htouched, Table.get?_insert_ite]
  have hsame : ({ p with touched, stats } : Pool).hasClass c = p.hasClass c := rfl
  rw [queue, hsame]
  simp only [hget]
  by_cases hc : c = length
  · simp only [if_pos hc]
    rw [hc, if_pos hclass]
  · simp only [if_neg hc]
    rfl

/-- Only classes have buffers. -/
theorem hasClass_of_queue {c : Nat} (h : p.queue c ≠ []) : p.hasClass c = true := by
  rw [queue] at h
  split at h
  · assumption
  · exact absurd rfl h

/-- **The buffer that is handed out** is the first one of its class, or a new one. -/
theorem get_fst (p : Pool) (size : Nat) : (p.get size).1 =
    (p.classFor size).elim (zeros size) fun c => (p.queue c).headD (zeros c) := by
  rw [get]
  split
  · rename_i hnone
    rw [hnone]
    rfl
  · rename_i c hsome
    rw [hsome, Option.elim_some]
    split <;> rename_i hqueue <;> rw [hqueue] <;> rfl

/-- **Handing out a buffer** takes the first one off the queue of its class. -/
theorem queue_get (p : Pool) (size c : Nat) : (p.get size).2.queue c =
    if p.classFor size = some c then (p.queue c).tail else p.queue c := by
  rw [get]
  split
  · rename_i hnone
    rw [hnone, if_neg (Option.some_ne_none c).symm]
    rfl
  · rename_i length hsome
    rw [hsome]
    simp only [Option.some.injEq]
    split
    · -- there is a buffer, so the class is one that was built
      rename_i buffer rest hqueue
      have hclass : p.hasClass length = true :=
        hasClass_of_queue (by rw [hqueue]; exact List.cons_ne_nil _ _)
      rw [queue_touch _ rfl hclass]
      by_cases hc : c = length
      · rw [if_pos hc, if_pos hc.symm, hc, hqueue]
        rfl
      · rw [if_neg hc, if_neg (Ne.symm hc)]
    · -- a new buffer comes from no queue
      rename_i hqueue
      show p.queue c = _
      split
      · rename_i hc
        rw [← hc, hqueue]
        rfl
      · rfl

/-- **A buffer that is taken back** goes to the end of the queue of its class, unless that is full.
-/
theorem queue_release (p : Pool) (buffer : Bytes) (c : Nat) : (p.release buffer).2.queue c =
    if p.hasClass c = true ∧ buffer.length = c ∧ (p.queue c).length < queueLimit then
      p.queue c ++ [buffer]
    else p.queue c := by
  rw [release]
  simp only
  split
  · rename_i hclass
    split
    · rename_i hfull
      rw [if_neg]
      rintro ⟨-, rfl, hspace⟩
      exact Nat.not_lt.mpr hfull hspace
    · rename_i hspace
      rw [queue_touch p.stats rfl hclass]
      by_cases hc : c = buffer.length
      · rw [if_pos hc, if_pos ⟨hc ▸ hclass, hc.symm, hc ▸ Nat.not_le.mp hspace⟩, hc]
      · rw [if_neg hc, if_neg fun h => hc h.2.1.symm]
  · rename_i hclass
    rw [if_neg]
    rintro ⟨hc, rfl, -⟩
    exact hclass hc

theorem queue_clear (p : Pool) (c : Nat) : p.clear.queue c = [] := by
  rw [queue]
  split <;> rfl

/-! ## Each buffer waits in the class of its length -/

/-- A queue holds buffers of the length of its class. -/
def Filed (p : Pool) : Prop := ∀ c, ∀ buffer ∈ p.queue c, buffer.length = c

theorem length_zeros (n : Nat) : (zeros n).length = n := List.length_replicate

/-- At the start all buffers are as long as their class is. -/
theorem filed_untouched (h : p.touched = Table.empty) : p.Filed := by
  intro c buffer hbuffer
  rw [queue, h] at hbuffer
  split at hbuffer
  · change buffer ∈ fresh p.perClass c at hbuffer
    rw [fresh_eq] at hbuffer
    rw [List.eq_of_mem_replicate hbuffer, length_zeros]
  · exact absurd hbuffer List.not_mem_nil

theorem Filed.get (h : p.Filed) (size : Nat) : (p.get size).2.Filed := by
  intro c buffer hbuffer
  rw [queue_get] at hbuffer
  split at hbuffer
  · exact h c buffer (List.mem_of_mem_tail hbuffer)
  · exact h c buffer hbuffer

theorem Filed.release (h : p.Filed) (buffer : Bytes) : (p.release buffer).2.Filed := by
  intro c other hother
  rw [queue_release] at hother
  split at hother
  · rename_i htaken
    rcases List.mem_append.mp hother with hother | hother
    · exact h c other hother
    · rw [List.mem_singleton.mp hother]
      exact htaken.2.1
  · exact h c other hother

theorem Filed.clear (p : Pool) : p.clear.Filed := by
  intro c buffer hbuffer
  rw [queue_clear] at hbuffer
  exact absurd hbuffer List.not_mem_nil

theorem Filed.apply (h : p.Filed) (op : Op) : (p.apply op).2.Filed := by
  cases op with
  | get size => exact h.get size
  | release buffer => exact h.release buffer
  | clear => exact Filed.clear p

/-- **In every history** each buffer waits in the class of its length. -/
theorem Filed.run (h : p.Filed) (ops : List Op) : (p.run ops).2.Filed := by
  induction ops generalizing p with
  | nil => exact h
  | cons op ops ih => exact ih (h.apply op)

/-- **The buffer that is handed out** has the length of its class, or the one asked for. -/
theorem Filed.length_get (h : p.Filed) (size : Nat) :
    (p.get size).1.length = (p.classFor size).getD size := by
  rw [get_fst]
  cases p.classFor size with
  | none => exact length_zeros size
  | some c =>
    simp only [Option.elim_some, Option.getD_some]
    cases hqueue : p.queue c with
    | nil => exact length_zeros c
    | cons buffer rest => exact h c buffer (by rw [hqueue]; exact List.mem_cons_self)

end FrameSync.Buffer.Pool
