import FrameSync.Proofs.Buffer.Queues
import Mathlib.Algebra.Group.Nat.Defs
import Mathlib.Order.Bounds.Basic

/-!
# Rounding goes to the classes that are built

The classes of a pool are listed by a loop: from the least length on, one step after the other,
until the greatest length is passed. The class of a request comes from a formula instead
(`roundUp`). The two agree for every layout, also where the range is no whole number of steps and
the formula may round past the last class.

- `Lists` is the loop in numbers below a limit, and `lists_iff` says that it ends unless an addition
  passes the limit, with the list of classes.
- `roundUp_bounds` and `roundUp_le` place the rounded length among the multiples of the step: it is
  the first one that is not below the request.
- `classFor_eq_some_iff` and `classFor_eq_none_iff` say the same of the classes of a pool.

`rounding_matches_classes` joins the two, for the pool of a layout after any history. That a buffer
without a class never gets into a queue follows, since its length is the one that was asked for.
-/

set_option autoImplicit false

namespace FrameSync.Buffer

/-! ## The listing -/

section Listing

variable {limit greatest step size c : Nat} {listed : List Nat}

/-- The listing of the classes in numbers below `limit`, round by round: a length that does not pass
the greatest is listed, and the next one is looked at. There is no way on if the next one does not
fit the limit. -/
inductive Lists (limit greatest step : Nat) : Nat → List Nat → Prop where
  | stop {size : Nat} (hpast : greatest < size) : Lists limit greatest step size []
  | round {size : Nat} {listed : List Nat} (hin : size ≤ greatest) (hfits : size + step < limit)
      (hrest : Lists limit greatest step (size + step) listed) :
      Lists limit greatest step size (size :: listed)

/-- **The listing ends** if no addition passes the limit, and lists the classes; otherwise it does
not get to its end. -/
theorem lists_iff (step_pos : 0 < step) : Lists limit greatest step size listed ↔
    listed = classLengths size greatest step step_pos ∧ ∀ c ∈ listed, c + step < limit := by
  constructor
  · intro h
    induction h with
    | stop hpast =>
      rw [classLengths, if_neg (Nat.not_le.mpr hpast)]
      exact ⟨rfl, by simp⟩
    | round hin hfits hrest ih =>
      rw [classLengths, if_pos hin, ← ih.1]
      exact ⟨rfl, List.forall_mem_cons.mpr ⟨hfits, ih.2⟩⟩
  · rintro ⟨rfl, hfits⟩
    fun_induction classLengths size greatest step step_pos with
    | case1 size hin ih =>
      have hall := List.forall_mem_cons.mp hfits
      exact .round hin hall.1 (ih hall.2)
    | case2 size hpast => exact .stop (Nat.not_le.mp hpast)

/-- The classes are the lengths that a whole number of steps leads to. -/
theorem classLengths_eq {step_pos : 0 < step} (h : size ≤ greatest) :
    classLengths size greatest step step_pos =
      (List.range ((greatest - size) / step + 1)).map fun i => size + i * step := by
  fun_induction classLengths size greatest step step_pos with
  | case1 size hin ih =>
    rw [List.range_succ_eq_map, List.map_cons, Nat.zero_mul, Nat.add_zero]
    congr 1
    by_cases hnext : size + step ≤ greatest
    · have hcount : (greatest - size) / step = (greatest - (size + step)) / step + 1 := by
        rw [← Nat.add_div_right _ step_pos]
        congr 1
        omega
      rw [ih hnext, hcount, List.map_map]
      refine List.map_congr_left fun i _ => ?_
      simp only [Function.comp_apply, Nat.succ_mul]
      omega
    · -- the first length is the last one as well
      have hcount : (greatest - size) / step = 0 := Nat.div_eq_of_lt (by omega)
      rw [classLengths, if_neg hnext, hcount]
      rfl
  | case2 size hpast => exact absurd h hpast

end Listing

namespace Pool

variable {p : Pool} {size c : Nat}

theorem mem_lengths : c ∈ p.lengths ↔
    p.least ≤ c ∧ c ≤ p.greatest ∧ (c - p.least) % p.step = 0 := mem_classLengths

/-! ## The rounding -/

/-- The first length from `least` on, in steps of `step`, that is not below a size. -/
def roundUp (least step size : Nat) : Nat :=
  least + (size - least + (step - 1)) / step * step

/-- Rounding up goes less than a step too far. -/
theorem roundUp_bounds {least step size : Nat} (hstep : 0 < step) (hsize : least ≤ size) :
    size ≤ roundUp least step size ∧ roundUp least step size < size + step ∧
      (roundUp least step size - least) % step = 0 := by
  have hdiv := Nat.div_add_mod (size - least + (step - 1)) step
  have hmod := Nat.mod_lt (size - least + (step - 1)) hstep
  rw [Nat.mul_comm] at hdiv
  refine ⟨?_, ?_, ?_⟩
  · rw [roundUp]
    omega
  · rw [roundUp]
    omega
  · rw [roundUp, Nat.add_sub_cancel_left, Nat.mul_mod_left]

/-- Rounding up goes no further than it has to. -/
theorem roundUp_le {least step size c : Nat} (hstep : 0 < step) (hsize : least ≤ size)
    (hc : (c - least) % step = 0) (hle : size ≤ c) : roundUp least step size ≤ c := by
  obtain ⟨-, hupper, hmultiple⟩ := roundUp_bounds hstep hsize
  obtain ⟨a, ha⟩ := Nat.dvd_of_mod_eq_zero hmultiple
  obtain ⟨b, hb⟩ := Nat.dvd_of_mod_eq_zero hc
  refine Nat.le_of_not_lt fun hlt => ?_
  -- otherwise there would be a step between the two
  have hba : b < a := by
    refine Nat.lt_of_not_le fun hab => ?_
    have := Nat.mul_le_mul_left step hab
    omega
  have := Nat.mul_le_mul_left step (Nat.succ_le_of_lt hba)
  rw [Nat.mul_succ] at this
  omega

theorem classFor_eq (p : Pool) (size : Nat) : p.classFor size =
    if p.greatest < size then none
    else if size ≤ p.least then some p.least
    else if roundUp p.least p.step size ≤ p.greatest then some (roundUp p.least p.step size)
    else none := rfl

/-- The class of a request is long enough. -/
theorem le_of_classFor (h : p.classFor size = some c) : size ≤ c := by
  rw [classFor_eq] at h
  split at h
  · cases h
  · split at h
    · cases h
      assumption
    · rename_i hlarge
      split at h
      · cases h
        exact (roundUp_bounds p.step_pos (Nat.le_of_not_le hlarge)).1
      · cases h

/-- A request is served from the least class that is long enough, -/
theorem isLeast_of_classFor (hrange : p.least ≤ p.greatest) (h : p.classFor size = some c) :
    IsLeast {c | c ∈ p.lengths ∧ size ≤ c} c := by
  refine ⟨⟨?_, le_of_classFor h⟩, ?_⟩
  · rw [classFor_eq] at h
    split at h
    · cases h
    · split at h
      · cases h
        exact mem_lengths.mpr ⟨Nat.le_refl _, hrange, by simp⟩
      · split at h
        · rename_i hin
          cases h
          exact mem_lengths.mpr ⟨Nat.le_add_right _ _, hin,
            (roundUp_bounds p.step_pos (by omega)).2.2⟩
        · cases h
  · -- no class that is long enough lies below
    rintro c' ⟨hlisted, hsize⟩
    obtain ⟨hlower, -, hstep⟩ := mem_lengths.mp hlisted
    rw [classFor_eq] at h
    split at h
    · cases h
    · split at h
      · cases h
        exact hlower
      · split at h
        · cases h
          exact roundUp_le p.step_pos (by omega) hstep hsize
        · cases h

/-- and past all classes only if every one of them is too short. -/
theorem lt_of_classFor (h : p.classFor size = none) (hlisted : c ∈ p.lengths) : c < size := by
  obtain ⟨hlower, hupper, hstep⟩ := mem_lengths.mp hlisted
  rw [classFor_eq] at h
  split at h
  · omega
  · split at h
    · cases h
    · split at h
      · cases h
      · rename_i hpast
        refine Nat.lt_of_not_le fun hsize => hpast ?_
        exact Nat.le_trans (roundUp_le p.step_pos (by omega) hstep hsize) hupper

/-- **The class of a request** is the least one that is long enough. -/
theorem classFor_eq_some_iff (hrange : p.least ≤ p.greatest) :
    p.classFor size = some c ↔ IsLeast {c | c ∈ p.lengths ∧ size ≤ c} c := by
  refine ⟨isLeast_of_classFor hrange, fun hleast => ?_⟩
  cases hclass : p.classFor size with
  | none => exact absurd hleast.1.2 (Nat.not_le.mpr (lt_of_classFor hclass hleast.1.1))
  | some c' => rw [(isLeast_of_classFor hrange hclass).unique hleast]

/-- **No class** is long enough for a request that has none. -/
theorem classFor_eq_none_iff (hrange : p.least ≤ p.greatest) :
    p.classFor size = none ↔ ∀ c ∈ p.lengths, c < size := by
  refine ⟨fun hnone c => lt_of_classFor hnone, fun hshort => ?_⟩
  cases hclass : p.classFor size with
  | none => rfl
  | some c =>
    obtain ⟨⟨hlisted, hsize⟩, -⟩ := isLeast_of_classFor hrange hclass
    exact absurd hsize (Nat.not_le.mpr (hshort c hlisted))

/-- The rounding stays in the numbers that the listing has gone through: a length that it rounds up
to is at most a step behind a class. -/
theorem roundUp_lt {limit : Nat} (hfits : ∀ c ∈ p.lengths, c + p.step < limit)
    (hlarge : p.least < size) (hin : size ≤ p.greatest) : roundUp p.least p.step size < limit := by
  have hstep := p.step_pos
  obtain ⟨hlower, hupper, hmultiple⟩ := roundUp_bounds hstep (Nat.le_of_lt hlarge)
  -- the length before it is a class, for the request is behind the least one
  have hfar : p.step ≤ roundUp p.least p.step size - p.least :=
    Nat.le_of_dvd (by omega) (Nat.dvd_of_mod_eq_zero hmultiple)
  have hlisted : roundUp p.least p.step size - p.step ∈ p.lengths := by
    refine mem_lengths.mpr ⟨by omega, by omega, ?_⟩
    rw [Nat.sub_right_comm]
    exact Nat.mod_eq_zero_of_dvd (Nat.dvd_sub (Nat.dvd_of_mod_eq_zero hmultiple) (Nat.dvd_refl _))
  have := hfits _ hlisted
  omega

/-! ## Requests and returns -/

/-- A buffer that is handed out is as long as was asked for. -/
theorem Filed.le_length_get (h : p.Filed) (size : Nat) : size ≤ (p.get size).1.length := by
  rw [h.length_get]
  cases hclass : p.classFor size with
  | none => exact Nat.le_refl size
  | some c => exact le_of_classFor hclass

/-- A buffer that is handed out for a request without a class is of no class. -/
theorem Filed.length_get_of_none (h : p.Filed) (hpast : p.classFor size = none) :
    (p.get size).1.length ∉ p.lengths := by
  intro hlisted
  rw [h.length_get, hpast, Option.getD_none] at hlisted
  exact Nat.lt_irrefl size (lt_of_classFor hpast hlisted)

/-- The classes stay those that were built. -/
theorem SameClasses.mem_lengths_iff {q : Pool} (h : SameClasses p q) :
    c ∈ q.lengths ↔ c ∈ p.lengths := by
  rw [← hasClass_iff, ← hasClass_iff, h.hasClass]

/-- A buffer of no class is not taken back. -/
theorem release_of_no_class {buffer : Bytes} (h : buffer.length ∉ p.lengths) :
    p.release buffer = (.untracked, p) := by
  rw [release]
  exact if_neg (mt hasClass_iff.mp h)

/-- **Rounding goes to the classes that are built.** For the pool of any layout, with numbers that
do not pass a limit:

- the loop that lists the classes comes to its end if and only if none of its additions passes the
  limit, and then has listed the classes: one for each whole number of steps in the range;
- in that case the rounding does not pass the limit either;
- after any history, the class of a request is the least one that is long enough, and there is none
  if and only if every class is too short;
- a buffer that is handed out is as long as was asked for, and one handed out for a request without a
  class is not taken back by any class at any later time, whatever it holds by then. -/
theorem rounding_matches_classes (config : PoolConfig) :
    let least := max config.least 2
    let greatest := max config.greatest least
    let step := 2 ^ config.stepBits
    let classes := (Pool.ofConfig config).lengths
    (∀ limit listed, Lists limit greatest step least listed ↔
      listed = classes ∧ ∀ c ∈ listed, c + step < limit) ∧
    classes = (List.range ((greatest - least) / step + 1)).map (fun i => least + i * step) ∧
    (∀ limit size, (∀ c ∈ classes, c + step < limit) → least < size → size ≤ greatest →
      roundUp least step size < limit) ∧
    ∀ ops size,
      let p := ((Pool.ofConfig config).run ops).2
      (∀ c, p.classFor size = some c ↔ IsLeast {c | c ∈ classes ∧ size ≤ c} c) ∧
      (p.classFor size = none ↔ ∀ c ∈ classes, c < size) ∧
      size ≤ (p.get size).1.length ∧
      (p.classFor size = none → ∀ ops' buffer, buffer.length = (p.get size).1.length →
        let p' := ((p.get size).2.run ops').2
        p'.release buffer = (.untracked, p')) := by
  intro least greatest step classes
  have hrange : least ≤ greatest := Nat.le_max_right _ _
  have hstep : (Pool.ofConfig config).step = step := Nat.one_shiftLeft config.stepBits
  refine ⟨fun limit listed => ?_, ?_, fun limit size => ?_, fun ops size => ?_⟩
  · rw [← hstep]
    exact lists_iff (Pool.ofConfig config).step_pos
  · rw [← hstep]
    exact classLengths_eq hrange
  · rw [← hstep]
    exact roundUp_lt
  · intro p
    have hsame := (Pool.ofConfig config).sameClasses_run ops
    have hfiled : p.Filed := (filed_untouched rfl).run ops
    refine ⟨fun c => ?_, ?_, hfiled.le_length_get size, ?_⟩
    · rw [hsame.classFor]
      exact classFor_eq_some_iff hrange
    · rw [hsame.classFor]
      exact classFor_eq_none_iff hrange
    · intro hpast ops' buffer hbuffer p'
      have hsame' : SameClasses p p' := (p.sameClasses_get size).trans (sameClasses_run _ ops')
      refine release_of_no_class fun hlisted => ?_
      rw [hsame'.mem_lengths_iff, hbuffer] at hlisted
      exact hfiled.length_get_of_none hpast hlisted

/-- The range is no whole number of steps: the last class is 64, and 65 to 70 have none. -/
example : (ofConfig ⟨16, 70, 4, 1⟩).classFor 64 = some 64 ∧
    (ofConfig ⟨16, 70, 4, 1⟩).classFor 65 = none := by decide

end Pool

end FrameSync.Buffer
