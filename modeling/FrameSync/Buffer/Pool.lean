import FrameSync.Table
import FrameSync.Wire.Header

/-!
# A pool of reusable buffers

Buffers are kept in classes of one length each: the least length, then further lengths one step
apart, up to the greatest. A request is served from the least class that is long enough; the buffer
handed out has the class length and whatever content its last user left. A request that no class
can serve, and a returned buffer that is of no class, go past the pool. A class keeps at most
`queueLimit` returned buffers, first in, first out.

`lengths` lists the classes and `hasClass` tests for one; `hasClass_iff` says that the two agree.
`get` and `release` are the two moves, `Op` and `run` a history of them. `send` frames a packet in
a pooled buffer.
-/

set_option autoImplicit false

namespace FrameSync.Buffer

/-- How many returned buffers a class keeps. -/
def queueLimit : Nat := 32

/-- The class layout of a pool. Classes lie `1 <<< stepBits` apart between `least` and `greatest`;
at least 2 is used for the one and at least the least length for the other. `perClass` buffers are
made for each class at the start. -/
structure PoolConfig where
  least : Nat
  greatest : Nat
  stepBits : Nat
  perClass : Nat
deriving DecidableEq, Repr

/-- The layout of the stock server. -/
def PoolConfig.standard : PoolConfig := ⟨16, 4096, 4, 4⟩

/-- What became of a returned buffer: it waits in its class, or it was dropped, being of no class or
its class full. -/
inductive Release where
  | pooled
  | untracked
  | queueFull
deriving DecidableEq, Repr

/-- The name of an outcome. -/
def Release.name : Release → String
  | pooled => "Pooled"
  | untracked => "Untracked"
  | queueFull => "QueueFull"

/-- How requests were served: from a class queue, by a new buffer for want of a queued one, or by a
new buffer outside all classes. -/
structure PoolStats where
  reused : Nat
  allocated : Nat
  oversize : Nat
deriving DecidableEq, Repr

/-- A buffer of `n` zero bytes. -/
def zeros (n : Nat) : Bytes := List.replicate n 0

/-- `count` buffers of `length` zero bytes each. A buffer is made only if one is wanted. -/
def fresh (count length : Nat) : List Bytes :=
  if count = 0 then [] else List.replicate count (zeros length)

/-- All of them are alike. -/
theorem fresh_eq (count length : Nat) : fresh count length = List.replicate count (zeros length) := by
  unfold fresh
  split
  · next h => rw [h, List.replicate_zero]
  · rfl

/-- A pool: the class layout, the free buffers and the counters. A class whose queue has never been
touched holds `perClass` buffers of zeros, so only the queues that have been touched are kept, each
with the next buffer first. -/
structure Pool where
  least : Nat
  greatest : Nat
  stepBits : Nat
  perClass : Nat
  touched : Table Nat (List Bytes)
  stats : PoolStats
deriving DecidableEq, Repr

/-- The lengths from `size` in steps of `step`, as long as they do not pass `greatest`. -/
def classLengths (size greatest step : Nat) (step_pos : 0 < step) : List Nat :=
  if size ≤ greatest then size :: classLengths (size + step) greatest step step_pos else []
termination_by greatest + 1 - size

/-- A listed length is one that whole steps lead to and that is in bounds. -/
theorem mem_classLengths {size greatest step length : Nat} {step_pos : 0 < step} :
    length ∈ classLengths size greatest step step_pos ↔
      size ≤ length ∧ length ≤ greatest ∧ (length - size) % step = 0 := by
  fun_induction classLengths size greatest step step_pos with
  | case1 size hsize ih =>
    rw [List.mem_cons, ih]
    constructor
    · rintro (rfl | ⟨hlower, hupper, hstep⟩)
      · simp [hsize]
      · refine ⟨by omega, hupper, ?_⟩
        rw [show length - size = length - (size + step) + step by omega, Nat.add_mod_right, hstep]
    · rintro ⟨hlower, hupper, hstep⟩
      by_cases h : length = size
      · exact Or.inl h
      · have hfar : step ≤ length - size := Nat.le_of_not_lt fun hlt => by
          rw [Nat.mod_eq_of_lt hlt] at hstep
          omega
        refine Or.inr ⟨by omega, hupper, ?_⟩
        rw [show length - size = length - (size + step) + step by omega,
          Nat.add_mod_right] at hstep
        exact hstep
  | case2 size hsize =>
    simp only [List.not_mem_nil, false_iff]
    omega

namespace Pool

/-- The pool of a layout, each class with its first buffers. -/
def ofConfig (config : PoolConfig) : Pool :=
  let least := max config.least 2
  { least
    greatest := max config.greatest least
    stepBits := config.stepBits
    perClass := config.perClass
    touched := Table.empty
    stats := ⟨0, 0, 0⟩ }

/-- A pool without classes. -/
def unpooled : Pool := ⟨2, 0, 0, 0, Table.empty, ⟨0, 0, 0⟩⟩

/-- The distance between classes. -/
def step (p : Pool) : Nat := 1 <<< p.stepBits

/-- Classes are apart. -/
theorem step_pos (p : Pool) : 0 < p.step := by
  rw [step, Nat.one_shiftLeft]
  exact Nat.two_pow_pos _

/-- The class lengths, ascending. -/
def lengths (p : Pool) : List Nat := classLengths p.least p.greatest p.step p.step_pos

/-- Is there a class of buffers of this length? -/
def hasClass (p : Pool) (length : Nat) : Bool :=
  p.least ≤ length && length ≤ p.greatest && (length - p.least) % p.step == 0

/-- The test finds exactly the classes that are listed. -/
theorem hasClass_iff {p : Pool} {length : Nat} : p.hasClass length = true ↔ length ∈ p.lengths := by
  simp [hasClass, lengths, mem_classLengths, and_assoc]

/-- The free buffers of a class, the next one first. -/
def queue (p : Pool) (length : Nat) : List Bytes :=
  if p.hasClass length then
    match p.touched.get? length with
    | none => fresh p.perClass length
    | some queue => queue
  else []

/-- The class length that serves a request of `size` bytes. -/
def classFor (p : Pool) (size : Nat) : Option Nat :=
  if p.greatest < size then none
  else if size ≤ p.least then some p.least
  else
    let length := p.least + (size - p.least + (p.step - 1)) / p.step * p.step
    if length ≤ p.greatest then some length else none

/-- Hand out a buffer of at least `size` bytes. -/
def get (p : Pool) (size : Nat) : Bytes × Pool :=
  match p.classFor size with
  | none => (zeros size, { p with stats := { p.stats with oversize := p.stats.oversize + 1 } })
  | some length =>
    match p.queue length with
    | buffer :: rest =>
      (buffer, { p with
        touched := p.touched.insert length rest
        stats := { p.stats with reused := p.stats.reused + 1 } })
    | [] =>
      (zeros length, { p with stats := { p.stats with allocated := p.stats.allocated + 1 } })

/-- Take a buffer back. -/
def release (p : Pool) (buffer : Bytes) : Release × Pool :=
  let length := buffer.length
  if p.hasClass length then
    let queue := p.queue length
    if queueLimit ≤ queue.length then (.queueFull, p)
    else (.pooled, { p with touched := p.touched.insert length (queue ++ [buffer]) })
  else (.untracked, p)

/-- The number of free buffers of a class. -/
def available (p : Pool) (length : Nat) : Nat :=
  if p.hasClass length then
    match p.touched.get? length with
    | none => p.perClass
    | some queue => queue.length
  else 0

/-- The number is the length of the queue. -/
theorem available_eq (p : Pool) (length : Nat) : p.available length = (p.queue length).length := by
  unfold available queue
  split
  · split
    · rw [fresh_eq, List.length_replicate]
    · rfl
  · rfl

/-- Drop every free buffer; the classes stay. -/
def clear (p : Pool) : Pool := { p with perClass := 0, touched := Table.empty }

/-- Frame a packet in a pooled buffer. Answers the number of bytes to send and the whole buffer. -/
def send (p : Pool) (command : UInt8) (payload : Bytes) : Option (Nat × Bytes) × Pool :=
  let (buffer, p') := p.get (Wire.Header.size + payload.length)
  (Wire.frameInto? command payload buffer, p')

/-! ## Histories -/

/-- A move on a pool: ask for a buffer, return one, which may be one that was handed out or any
other, or drop every free buffer. -/
inductive Op where
  | get (size : Nat)
  | release (buffer : Bytes)
  | clear
deriving DecidableEq, Repr

/-- What a move answers. -/
inductive Answer where
  | got (buffer : Bytes)
  | released (outcome : Release)
  | cleared
deriving DecidableEq, Repr

/-- Make one move. -/
def apply (p : Pool) : Op → Answer × Pool
  | .get size => let (buffer, p') := p.get size; (.got buffer, p')
  | .release buffer => let (outcome, p') := p.release buffer; (.released outcome, p')
  | .clear => (.cleared, p.clear)

/-- Make the moves of a history in order. -/
def run : Pool → List Op → List Answer × Pool
  | p, [] => ([], p)
  | p, op :: ops =>
    let (answer, p') := p.apply op
    let (answers, p'') := run p' ops
    (answer :: answers, p'')

end Pool

end FrameSync.Buffer
