import FrameSync.Proofs.Buffer.Queues
import Mathlib.Data.List.DropRight

/-!
# Whatever goes into a class comes out once, in order

A class of a pool is a queue: buffers that are returned and pooled go in at the end, and requests
that are served from the class take them off the front. The history of a pool is a list of `Step`s,
each a move with the pool it is made on. `Step.arrival?` and `Step.departure?` read off a step what
it brings into a class and what it hands out of it; neither looks at a queue, only at what the pool
answers and counts.

The step lemma is `Step.conserved`: unless everything is dropped, what waits before a step and what
arrives with it is what departs with it and what waits after it. A history repeats this
(`arrived_eq`), beginning anew whenever everything is dropped. Hence the number of buffers that wait
is a difference of two counts, a buffer departs in its turn with the content it arrived with, and
none departs twice (`conservation`).
-/

set_option autoImplicit false

namespace FrameSync.Buffer

/-- How many requests the counters stand for. -/
def PoolStats.served (stats : PoolStats) : Nat := stats.reused + stats.allocated + stats.oversize

namespace Pool

variable {p : Pool} {c : Nat}

/-! ## Histories, step by step -/

/-- Is the move a request? -/
def Op.isGet : Op → Bool
  | .get _ => true
  | _ => false

/-- A move of a history, with the pool before it. -/
structure Step where
  pool : Pool
  op : Op

namespace Step

/-- What the move answers. -/
def answer (s : Step) : Answer := (s.pool.apply s.op).1

/-- The pool after the move. -/
def after (s : Step) : Pool := (s.pool.apply s.op).2

/-- The buffer that arrives in a class: one of its length, returned and taken back. -/
def arrival? (c : Nat) (s : Step) : Option Bytes :=
  match s.op with
  | .release buffer =>
    if buffer.length = c ∧ s.answer = .released .pooled then some buffer else none
  | _ => none

/-- The buffer that departs from a class: the one handed out for a request of the class, if it
counts as one that is used again. -/
def departure? (c : Nat) (s : Step) : Option Bytes :=
  match s.op with
  | .get size =>
    if s.pool.classFor size = some c ∧ s.pool.stats.reused < s.after.stats.reused then
      some (s.pool.get size).1
    else none
  | _ => none

end Step

/-- The steps of a history. -/
def steps : Pool → List Op → List Step
  | _, [] => []
  | p, op :: ops => ⟨p, op⟩ :: steps (p.apply op).2 ops

theorem run_snoc (p : Pool) (ops : List Op) (op : Op) :
    (p.run (ops ++ [op])).2 = ((p.run ops).2.apply op).2 := by
  induction ops generalizing p with
  | nil => rfl
  | cons first ops ih => exact ih (p.apply first).2

theorem steps_snoc (p : Pool) (ops : List Op) (op : Op) :
    p.steps (ops ++ [op]) = p.steps ops ++ [⟨(p.run ops).2, op⟩] := by
  induction ops generalizing p with
  | nil => rfl
  | cons first ops ih => exact congrArg (⟨p, first⟩ :: ·) (ih (p.apply first).2)

/-- The steps answer what the history answers. -/
theorem map_answer_steps (p : Pool) (ops : List Op) :
    (p.steps ops).map Step.answer = (p.run ops).1 := by
  induction ops generalizing p with
  | nil => rfl
  | cons op ops ih => exact congrArg ((p.apply op).1 :: ·) (ih (p.apply op).2)

/-! ## What one step does -/

/-- A returned buffer is pooled if there is a class of its length that is not full. -/
theorem release_fst_eq_pooled_iff {buffer : Bytes} : (p.release buffer).1 = .pooled ↔
    p.hasClass buffer.length = true ∧ (p.queue buffer.length).length < queueLimit := by
  rw [release]
  simp only
  split
  · rename_i hclass
    split
    · rename_i hfull
      exact iff_of_false (by simp) fun h => Nat.not_lt.mpr hfull h.2
    · rename_i hspace
      exact iff_of_true rfl ⟨hclass, Nat.not_le.mp hspace⟩
  · rename_i hclass
    exact iff_of_false (by simp) fun h => hclass h.1

/-- **The counters after a request:** exactly one of them is one higher, and which one it is tells
where the buffer comes from. -/
theorem stats_get (p : Pool) (size : Nat) : (p.get size).2.stats =
    (p.classFor size).elim { p.stats with oversize := p.stats.oversize + 1 } fun c =>
      if p.queue c = [] then { p.stats with allocated := p.stats.allocated + 1 }
      else { p.stats with reused := p.stats.reused + 1 } := by
  rw [get]
  split
  · rename_i hnone
    rw [hnone]
    rfl
  · rename_i c hsome
    rw [hsome, Option.elim_some]
    split
    · rename_i hqueue
      rw [hqueue, if_neg (List.cons_ne_nil _ _)]
    · rename_i hqueue
      rw [hqueue, if_pos rfl]

theorem stats_release (p : Pool) (buffer : Bytes) : (p.release buffer).2.stats = p.stats := by
  rw [release]
  simp only
  split
  · split <;> rfl
  · rfl

namespace Step

/-- What arrives in a class is what goes to the end of its queue. -/
theorem arrival?_release (buffer : Bytes) : arrival? c ⟨p, .release buffer⟩ =
    if p.hasClass c = true ∧ buffer.length = c ∧ (p.queue c).length < queueLimit then some buffer
    else none := by
  have hanswer : answer ⟨p, .release buffer⟩ = .released (p.release buffer).1 := rfl
  simp only [arrival?, hanswer, Answer.released.injEq, release_fst_eq_pooled_iff]
  refine if_congr ⟨?_, ?_⟩ rfl rfl
  · rintro ⟨rfl, hclass, hspace⟩
    exact ⟨hclass, rfl, hspace⟩
  · rintro ⟨hclass, rfl, hspace⟩
    exact ⟨rfl, hclass, hspace⟩

/-- What departs from a class is the front of its queue. -/
theorem departure?_get (size : Nat) : departure? c ⟨p, .get size⟩ =
    if p.classFor size = some c then (p.queue c).head? else none := by
  have hafter : after ⟨p, .get size⟩ = (p.get size).2 := rfl
  simp only [departure?, hafter, stats_get, get_fst]
  by_cases hclass : p.classFor size = some c
  · simp only [hclass, true_and, if_true, Option.elim_some]
    cases hqueue : p.queue c with
    | nil =>
      rw [if_pos rfl, if_neg (Nat.lt_irrefl _)]
      rfl
    | cons buffer rest =>
      rw [if_neg (List.cons_ne_nil _ _), if_pos (Nat.lt_succ_self _)]
      rfl
  · rw [if_neg fun h => hclass h.1, if_neg hclass]

/-- **A step loses no buffer and makes up none:** unless everything is dropped, what waits in a
class and what arrives in it is what departs from it and what waits then. -/
theorem conserved {s : Step} (hkeeps : s.op ≠ .clear) (c : Nat) :
    s.pool.queue c ++ (s.arrival? c).toList = (s.departure? c).toList ++ s.after.queue c := by
  obtain ⟨p, op⟩ := s
  cases op with
  | get size =>
    have hafter : (after ⟨p, .get size⟩).queue c = (p.get size).2.queue c := rfl
    have hnone : arrival? c ⟨p, .get size⟩ = none := rfl
    rw [hafter, queue_get, departure?_get, hnone, Option.toList_none, List.append_nil]
    split
    · cases p.queue c <;> rfl
    · rfl
  | release buffer =>
    have hafter : (after ⟨p, .release buffer⟩).queue c = (p.release buffer).2.queue c := rfl
    have hnone : departure? c ⟨p, .release buffer⟩ = none := rfl
    rw [hafter, queue_release, arrival?_release, hnone, Option.toList_none, List.nil_append]
    split
    · rfl
    · exact List.append_nil _
  | clear => exact absurd rfl hkeeps

end Step

/-! ## What a history does -/

/-- The steps since everything was last dropped. -/
def recent (p : Pool) (ops : List Op) : List Step :=
  (p.steps ops).rtakeWhile fun s => s.op ≠ .clear

/-- What waited in a class at the beginning of these steps. -/
def stock (p : Pool) (ops : List Op) (c : Nat) : List Bytes := if .clear ∈ ops then [] else p.queue c

/-- What has arrived in a class since then, behind what waited there already. -/
def arrived (p : Pool) (ops : List Op) (c : Nat) : List Bytes :=
  p.stock ops c ++ (p.recent ops).filterMap (Step.arrival? c)

/-- What has departed from a class since then. -/
def departed (p : Pool) (ops : List Op) (c : Nat) : List Bytes :=
  (p.recent ops).filterMap (Step.departure? c)

theorem filterMap_snoc {α β : Type} (f : α → Option β) (l : List α) (a : α) :
    (l ++ [a]).filterMap f = l.filterMap f ++ (f a).toList := by
  rw [List.filterMap_append, List.filterMap_cons]
  cases f a <;> rfl

theorem recent_clear (p : Pool) (ops : List Op) : p.recent (ops ++ [.clear]) = [] := by
  rw [recent, steps_snoc]
  exact List.rtakeWhile_concat_neg _ _ _ (by simp)

theorem recent_snoc (p : Pool) (ops : List Op) {op : Op} (hkeeps : op ≠ .clear) :
    p.recent (ops ++ [op]) = p.recent ops ++ [⟨(p.run ops).2, op⟩] := by
  rw [recent, steps_snoc]
  exact List.rtakeWhile_concat_pos _ _ _ (by simpa using hkeeps)

theorem stock_snoc (p : Pool) (ops : List Op) {op : Op} (hkeeps : op ≠ .clear) (c : Nat) :
    p.stock (ops ++ [op]) c = p.stock ops c := by
  simp only [stock, List.mem_append, List.mem_singleton, hkeeps.symm, or_false]

/-- **What has arrived in a class is what has departed from it and what waits**, in this order. -/
theorem arrived_eq (p : Pool) (ops : List Op) (c : Nat) :
    p.arrived ops c = p.departed ops c ++ (p.run ops).2.queue c := by
  induction ops using List.reverseRecOn with
  | nil => exact List.append_nil _
  | append_singleton ops op ih =>
    rw [run_snoc]
    by_cases hop : op = .clear
    · -- everything is dropped, and the account begins anew
      subst hop
      have hstock : p.stock (ops ++ [.clear]) c = [] := if_pos (by simp)
      have hqueue : ((p.run ops).2.apply .clear).2.queue c = [] := queue_clear _ c
      rw [arrived, departed, recent_clear, hstock, hqueue]
      rfl
    · have hstep := Step.conserved (s := ⟨(p.run ops).2, op⟩) hop c
      rw [arrived, departed] at ih ⊢
      rw [recent_snoc p ops hop, stock_snoc p ops hop, filterMap_snoc, filterMap_snoc,
        ← List.append_assoc, ih, List.append_assoc, hstep, List.append_assoc]
      rfl

/-- **Over a whole history**, what has departed from a class and what waits there came in before, in
this order, and each buffer once. -/
theorem departures_sublist (p : Pool) (ops : List Op) (c : Nat) :
    ((p.steps ops).filterMap (Step.departure? c) ++ (p.run ops).2.queue c).Sublist
      (p.queue c ++ (p.steps ops).filterMap (Step.arrival? c)) := by
  induction ops using List.reverseRecOn with
  | nil => exact (List.append_nil _).symm ▸ List.Sublist.refl _
  | append_singleton ops op ih =>
    rw [run_snoc, steps_snoc, filterMap_snoc, filterMap_snoc]
    by_cases hop : op = .clear
    · -- what waited is gone for good
      subst hop
      have hqueue : ((p.run ops).2.apply .clear).2.queue c = [] := queue_clear _ c
      have hdeparture : Step.departure? c ⟨(p.run ops).2, .clear⟩ = none := rfl
      have harrival : Step.arrival? c ⟨(p.run ops).2, .clear⟩ = none := rfl
      rw [hqueue, hdeparture, harrival]
      simp only [Option.toList_none, List.append_nil]
      exact (List.sublist_append_left _ _).trans ih
    · have hstep := Step.conserved (s := ⟨(p.run ops).2, op⟩) hop c
      rw [List.append_assoc, show ((p.run ops).2.apply op).2 = Step.after ⟨(p.run ops).2, op⟩ from rfl,
        ← hstep, ← List.append_assoc, ← List.append_assoc]
      exact ih.append (List.Sublist.refl _)

/-! ## How much waits -/

/-- A returned buffer makes no queue longer than the limit. -/
theorem length_queue_release_le (p : Pool) (buffer : Bytes) (c : Nat)
    (hlonger : (p.queue c).length < ((p.release buffer).2.queue c).length) :
    ((p.release buffer).2.queue c).length ≤ queueLimit := by
  rw [queue_release] at hlonger ⊢
  split
  · rename_i htaken
    rw [List.length_append]
    exact htaken.2.2
  · rename_i hrefused
    rw [if_neg hrefused] at hlonger
    exact absurd hlonger (Nat.lt_irrefl _)

theorem length_queue_apply_le (p : Pool) (op : Op) (c : Nat) :
    ((p.apply op).2.queue c).length ≤ max (p.queue c).length queueLimit := by
  cases op with
  | get size =>
    show ((p.get size).2.queue c).length ≤ _
    rw [queue_get]
    split
    · rw [List.length_tail]
      omega
    · exact Nat.le_max_left _ _
  | release buffer =>
    show ((p.release buffer).2.queue c).length ≤ _
    have hlimit := p.length_queue_release_le buffer c
    omega
  | clear =>
    show (p.clear.queue c).length ≤ _
    rw [queue_clear]
    exact Nat.zero_le _

/-- **No queue grows** beyond the limit, or beyond what waited there from the beginning. -/
theorem length_queue_run_le (p : Pool) (ops : List Op) (c : Nat) :
    ((p.run ops).2.queue c).length ≤ max (p.queue c).length queueLimit := by
  induction ops using List.reverseRecOn with
  | nil => exact Nat.le_max_left _ _
  | append_singleton ops op ih =>
    rw [run_snoc]
    -- the limit stays, so that one more operation adds nothing to the bound
    have hstep := length_queue_apply_le (p.run ops).2 op c
    omega

/-! ## How requests are counted -/

theorem served_apply (p : Pool) (op : Op) :
    (p.apply op).2.stats.served = p.stats.served + [op].countP Op.isGet := by
  cases op with
  | get size =>
    have hafter : (p.apply (.get size)).2 = (p.get size).2 := rfl
    have hone : [Op.get size].countP Op.isGet = 1 := rfl
    rw [hafter, hone, stats_get]
    cases p.classFor size with
    | none => rfl
    | some c =>
      rw [Option.elim_some]
      split <;> simp only [PoolStats.served] <;> omega
  | release buffer => exact congrArg PoolStats.served (p.stats_release buffer)
  | clear => rfl

/-- **Every request is counted once.** -/
theorem served_run (p : Pool) (ops : List Op) :
    (p.run ops).2.stats.served = p.stats.served + ops.countP Op.isGet := by
  induction ops using List.reverseRecOn with
  | nil => rfl
  | append_singleton ops op ih => rw [run_snoc, served_apply, ih, List.countP_append, Nat.add_assoc]

/-! ## The account of a class -/

/-- A class is built with its first buffers, all zeros. -/
theorem queue_ofConfig {config : PoolConfig} (hclass : c ∈ (ofConfig config).lengths) :
    (ofConfig config).queue c = List.replicate config.perClass (zeros c) := by
  rw [queue, if_pos (hasClass_iff.mpr hclass)]
  exact fresh_eq config.perClass c

/-- **What goes into a pool comes out once, and in order.** Take any history of a pool: buffers
asked for, buffers returned, whatever their lengths and contents, and everything dropped now and
then. Every request is counted once. For each class, and counted since everything was last dropped
(from the beginning, if it never was):

- the buffers that wait have the length of the class;
- the class had its first buffers (none, if everything has been dropped) and those that arrived, and
  these are the buffers that departed and then those that wait, in the same order and with the same
  contents, so that what is available is the difference of the counts;
- the next request of the class takes the arrival whose turn it is, if there is one, so each goes out
  at most once; over the whole history, too, what departed and what waits came in in this order, each
  buffer once;
- a class holds no more than the limit, or than it was built with, and a returned buffer never takes it
  beyond the limit. -/
theorem conservation (config : PoolConfig) (ops : List Op) :
    let pool := ofConfig config
    let p := (pool.run ops).2
    let history := pool.steps ops
    let recent := history.rtakeWhile fun s => s.op ≠ .clear
    history.map Step.answer = (pool.run ops).1 ∧
    p.stats.reused + p.stats.allocated + p.stats.oversize = ops.countP Op.isGet ∧
    ∀ c ∈ pool.lengths,
      let built := List.replicate config.perClass (zeros c)
      let arrived := (if .clear ∈ ops then [] else built) ++ recent.filterMap (Step.arrival? c)
      let departed := recent.filterMap (Step.departure? c)
      (∀ buffer ∈ p.queue c, buffer.length = c) ∧
      arrived = departed ++ p.queue c ∧
      p.available c + departed.length =
        (if .clear ∈ ops then 0 else config.perClass) +
          (recent.filterMap (Step.arrival? c)).length ∧
      (∀ size, p.classFor size = some c →
        Step.departure? c ⟨p, .get size⟩ = arrived[departed.length]?) ∧
      (history.filterMap (Step.departure? c) ++ p.queue c).Sublist
        (built ++ history.filterMap (Step.arrival? c)) ∧
      p.available c ≤ max config.perClass queueLimit ∧
      ∀ buffer, p.available c < (p.release buffer).2.available c →
        (p.release buffer).2.available c ≤ queueLimit := by
  intro pool p history recent
  refine ⟨map_answer_steps pool ops, ?_, fun c hclass => ?_⟩
  · exact (served_run pool ops).trans (Nat.zero_add _)
  · intro built arrived departed
    have hbuilt : pool.queue c = built := queue_ofConfig hclass
    have harrived : arrived = departed ++ p.queue c := by
      have h := arrived_eq pool ops c
      rw [Pool.arrived, stock, hbuilt] at h
      exact h
    refine ⟨(filed_untouched rfl).run ops c, harrived, ?_, ?_, ?_, ?_, ?_⟩
    · have hlength := congrArg List.length harrived
      rw [List.length_append, List.length_append, apply_ite List.length, List.length_nil,
        List.length_replicate] at hlength
      rw [available_eq]
      omega
    · intro size hsize
      rw [Step.departure?_get, if_pos hsize, harrived, List.getElem?_append_right (Nat.le_refl _),
        Nat.sub_self, List.head?_eq_getElem?]
    · have h := departures_sublist pool ops c
      rwa [hbuilt] at h
    · have h := length_queue_run_le pool ops c
      rw [hbuilt, List.length_replicate] at h
      rwa [available_eq]
    · intro buffer hlonger
      rw [available_eq, available_eq] at hlonger
      rw [available_eq]
      exact length_queue_release_le p buffer c hlonger

/-- A class of one is asked for twice and given three buffers, and everything is dropped between the
second and the third. -/
def mixedMoves : List Op :=
  [.get 10, .release (List.replicate 16 7), .release (List.replicate 16 8), .get 16, .clear,
    .release (List.replicate 16 9), .release (List.replicate 20 1), .get 100]

/-- The third buffer waits, and is what a request of the class gets next. -/
theorem conservation_mixed :
    let pool := ofConfig ⟨16, 64, 4, 1⟩
    let p := (pool.run mixedMoves).2
    16 ∈ pool.lengths ∧ p.classFor 3 = some 16 ∧ p.stats = ⟨2, 0, 1⟩ ∧ p.available 16 = 1 ∧
      Step.departure? 16 ⟨p, .get 3⟩ = some (List.replicate 16 9) := by
  intro pool p
  have hclass : 16 ∈ pool.lengths := by
    refine hasClass_iff.mp ?_
    decide
  have hsize : p.classFor 3 = some 16 := by
    decide
  obtain ⟨-, -, haccount⟩ := conservation ⟨16, 64, 4, 1⟩ mixedMoves
  obtain ⟨-, -, -, hnext, -, -, -⟩ := haccount 16 hclass
  refine ⟨hclass, hsize, by decide, by decide, (hnext 3 hsize).trans (by decide)⟩

end Pool

end FrameSync.Buffer
