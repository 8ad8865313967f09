import FrameSync.Proofs.Net.Tasks
import Mathlib.Data.List.Induction

/-!
# Generations of the battle listener

A stop takes effect at once, but the task that is told of it ends later, perhaps when a newer
generation has long been running. Two things keep the old task from the new one: the task clears the
running entry only if the entry has its own number, and numbers are given out once; and its
connections are its own.

The end of a task takes time as well: `Step` lets anything happen between the closing of its
connections and its last word. `generations_apart` is about all orders of such steps.
-/

set_option autoImplicit false

namespace FrameSync.Net.Battle.Listener

open Wire

variable {κ σ : Type} {s : Service κ σ} {l l' l'' : Listener κ σ} {g g' : Nat} {conn : ConnId}
  {address : Address} {p' : Poller κ σ}

/-! ## What the end of a task leaves alone -/

/-- What is as it was, whatever has become of the task of generation `g`. No generation has come,
and the running entry stays if it is not that of `g`; the other tasks keep their sessions and
orders, and what is not the task's is visible as before. -/
structure Spares (l : Listener κ σ) (g : Nat) (l' : Listener κ σ) : Prop where
  generations : l'.generations = l.generations
  running : l.takesOrders g = false → l'.running = l.running
  tasks : ∀ g', g' ≠ g → l'.tasks.get? g' = l.tasks.get? g'
  peers : ∀ conn, l.addressIn g conn = none →
    l'.addressIn g conn = none ∧ l'.shared.peers.get? conn = l.shared.peers.get? conn

theorem Spares.refl (l : Listener κ σ) (g : Nat) : Spares l g l :=
  ⟨rfl, fun _ => rfl, fun _ _ => rfl, fun _ hnone => ⟨hnone, rfl⟩⟩

theorem Spares.trans (h : Spares l g l') (h' : Spares l' g l'') : Spares l g l'' where
  generations := h'.generations.trans h.generations
  running := by
    intro htakes
    have hsame := h.running htakes
    refine (h'.running ?_).trans hsame
    rw [takesOrders, hsame]
    exact htakes
  tasks := fun g' hg => (h'.tasks g' hg).trans (h.tasks g' hg)
  peers := by
    intro conn hnone
    obtain ⟨hgone, hpeers⟩ := h.peers conn hnone
    exact ⟨(h'.peers conn hgone).1, (h'.peers conn hgone).2.trans hpeers⟩

theorem spares_drop (l : Listener κ σ) (g : Nat) (conn : ConnId) : Spares l g (l.drop s g conn) := by
  cases ht : l.tasks.get? g with
  | none =>
    rw [drop]
    rw [ht]
    exact Spares.refl l g
  | some t =>
    have hw : Worked l g (Poller.close s ⟨t.tables, l.shared⟩ conn) (l.drop s g conn) := by
      rw [drop_of_some ht]
      exact worked_insert l g t _ _ rfl rfl
    refine ⟨hw.generations, fun _ => hw.running, ?_, ?_⟩
    · intro g' hg
      rw [drop_of_some ht]
      exact Table.get?_insert_of_ne _ _ (Ne.symm hg)
    · intro c hnone
      rw [addressIn_of_tables (tables_of_some ht)] at hnone
      rw [addressIn_of_tables hw.own, hw.peers]
      cases hget : t.tables.byConn.get? conn with
      | none =>
        have hsame : Poller.close s (⟨t.tables, l.shared⟩ : Poller κ σ) conn = ⟨t.tables, l.shared⟩ := by
          rw [Poller.close]
          simp only [hget]
        rw [hsame]
        exact ⟨hnone, rfl⟩
      | some address =>
        have hc : conn ≠ c := by
          rintro rfl
          rw [hnone] at hget
          cases hget
        rw [Poller.close_of_some hget]
        exact ⟨(Table.get?_erase_of_ne _ hc).trans hnone, Table.get?_erase_of_ne _ hc⟩

theorem spares_leave (l : Listener κ σ) (g : Nat) : Spares l g (l.leave g) := by
  cases ht : l.tasks.get? g with
  | none =>
    rw [leave]
    rw [ht]
    exact Spares.refl l g
  | some t =>
    rw [leave_of_some ht]
    split
    · refine ⟨rfl, ?_, ?_, ?_⟩
      · intro htakes
        exact if_neg (by rw [htakes]; simp)
      · intro g' hg
        exact Table.get?_erase_of_ne _ (Ne.symm hg)
      · intro conn _
        refine ⟨?_, rfl⟩
        show (((l.tasks.erase g).get? g).map PollTask.tables).bind _ = none
        rw [Table.get?_erase_self]
        rfl
    · exact Spares.refl l g

theorem spares_finish (s : Service κ σ) (order : List ConnId) (l : Listener κ σ) (g : Nat) :
    Spares l g (l.finish s order g) := by
  cases ht : l.tasks.get? g with
  | none =>
    rw [finish]
    rw [ht]
    exact Spares.refl l g
  | some t =>
    rw [finish_eq_leave s order ht]
    refine Spares.trans ?_ (spares_leave _ g)
    exact List.foldlRecOn _ _ (Spares.refl l g) fun l' hl' conn _ => hl'.trans (spares_drop l' g conn)

/-- The connections of another task stay visible. -/
theorem Spares.visible (h : Spares l g l') (hl : Divided l) (hg : g' ≠ g)
    (hget : l.addressIn g' conn = some address) : l'.shared.peers.get? conn = some address := by
  have hnone : l.addressIn g conn = none :=
    Option.eq_none_iff_forall_ne_some.mpr fun address' hmine =>
      hg (hl.apart g' g conn address address' hget hmine)
  rw [(h.peers conn hnone).2]
  exact (hl.visible conn address).mpr ⟨g', hget⟩

/-! ## Steps -/

/-- What can happen to a listener whose tasks end step by step: a move, or a part of the end of a
task. A task that has noticed its stop, or whose socket has failed, takes no further part but to
end, at any later time. -/
inductive Step where
  | move (m : Move)
  | drop (generation : Nat) (conn : ConnId)
  | leave (generation : Nat)
deriving DecidableEq, Repr

/-- The generation whose task ends, or is about to. -/
def Step.tears : Step → Option Nat
  | .move (.finish g _) => some g
  | .drop g _ => some g
  | .leave g => some g
  | _ => none

/-- Is this the end of the task of generation `g`? -/
def Step.ends (l : Listener κ σ) (g : Nat) : Step → Bool
  | .move (.finish g' _) => g' = g && (l.tasks.get? g).isSome
  | .leave g' => g' = g && (l.tasks.get? g).any fun t => t.tables.byConn.keys.isEmpty
  | _ => false

/-- Make one step. -/
def step (s : Service κ σ) (l : Listener κ σ) : Step → Listener κ σ
  | .move m => l.apply s m
  | .drop g conn => l.drop s g conn
  | .leave g => l.leave g

/-- Make the steps of a history in order. -/
def steps (s : Service κ σ) (l : Listener κ σ) (es : List Step) : Listener κ σ := es.foldl (step s) l

/-- Does the task of generation `g` end in a history? -/
def ended (s : Service κ σ) (g : Nat) : Listener κ σ → List Step → Bool
  | _, [] => false
  | l, e :: es => e.ends l g || ended s g (l.step s e) es

theorem steps_cons (s : Service κ σ) (l : Listener κ σ) (e : Step) (es : List Step) :
    steps s l (e :: es) = steps s (l.step s e) es := rfl

theorem steps_append (s : Service κ σ) (l : Listener κ σ) (es es' : List Step) :
    steps s l (es ++ es') = steps s (steps s l es) es' := List.foldl_append

/-- A history of moves is one of steps. -/
theorem run_eq_steps (s : Service κ σ) (l : Listener κ σ) (ms : List Move) :
    run s l ms = steps s l (ms.map .move) := by
  rw [run, steps, List.foldl_map]
  rfl

theorem Divided.step (h : Divided l) (s : Service κ σ) (e : Step) : Divided (l.step s e) := by
  cases e with
  | drop g conn => exact h.drop s g conn
  | leave g => exact h.leave g
  | move m =>
    cases m with
    | start address => exact h.start address
    | startFails reason =>
      show Divided (l.start (.error reason)).2
      rw [start_error_snd]
      exact h
    | shutdown => exact h.shutdown
    | send d => exact h.alike (alike_sendAll l [d])
    | disconnect conn => exact h.alike (alike_disconnect l conn)
    | datagram g now address data => exact h.onTask g fun hc => hc.datagram s now address data
    | serve g => exact h.serve s g
    | update g now order => exact h.onTask g fun hc => hc.update s now order
    | finish g order => exact h.finish s order g

/-- **In every history** the connections are divided among the tasks. -/
theorem divided_steps (s : Service κ σ) (state : σ) (es : List Step) :
    Divided (steps s (new state) es) :=
  List.foldlRecOn es _ (Divided.new state) fun _ hl e _ => hl.step s e

theorem spares_step (s : Service κ σ) (l : Listener κ σ) {e : Step} (h : e.tears = some g) :
    Spares l g (l.step s e) := by
  cases e with
  | drop g' conn =>
    cases h
    exact spares_drop l g conn
  | leave g' =>
    cases h
    exact spares_leave l g
  | move m =>
    cases m with
    | finish g' order =>
      cases h
      exact spares_finish s order l g
    | _ => cases h

/-! ## The running entry -/

/-- What a step does to the running entry. A start begins the next generation, if none is running; a
stop takes the entry away, and so does the end of a task if it is that task's; nothing else touches
it. -/
inductive Turn (l l' : Listener κ σ) : Step → Prop where
  | started (address : Address) : l.running = none →
    l'.running = some ⟨l.generations + 1, address⟩ → l'.generations = l.generations + 1 →
    Turn l l' (.move (.start address))
  | stopped : l'.running = none → l'.generations = l.generations → Turn l l' (.move .shutdown)
  | ended (e : Step) (g : Nat) : e ≠ .move .shutdown → (∀ g', e.ends l g' = true ↔ g' = g) →
    (l'.running = if l.takesOrders g then none else l.running) →
    l'.generations = l.generations → Turn l l' e
  | quiet (e : Step) : e ≠ .move .shutdown → (∀ g, e.ends l g = false) →
    l'.running = l.running → l'.generations = l.generations → Turn l l' e

theorem Worked.turn (h : Worked l g p' l') {e : Step} (hstop : e ≠ .move .shutdown)
    (hends : ∀ g, e.ends l g = false) : Turn l l' e :=
  .quiet e hstop hends h.running h.generations

theorem Alike.turn (h : Alike l l') {e : Step} (hstop : e ≠ .move .shutdown)
    (hends : ∀ g, e.ends l g = false) : Turn l l' e :=
  .quiet e hstop hends h.running h.generations

/-- A task that is not there does nothing. -/
theorem turn_refl {e : Step} (hstop : e ≠ .move .shutdown) (hends : ∀ g, e.ends l g = false) :
    Turn l l e := .quiet e hstop hends rfl rfl

theorem turn_onTask (g : Nat) (f : Poller κ σ → Poller κ σ) {e : Step}
    (hstop : e ≠ .move .shutdown) (hends : ∀ g, e.ends l g = false) : Turn l (l.onTask g f) e := by
  cases ht : l.tasks.get? g with
  | none =>
    rw [onTask]
    rw [ht]
    exact turn_refl hstop hends
  | some t => exact (worked_onTask ht f).turn hstop hends

theorem turn_serve (s : Service κ σ) (g : Nat) {e : Step} (hstop : e ≠ .move .shutdown)
    (hends : ∀ g, e.ends l g = false) : Turn l (l.serve s g) e := by
  rw [serve]
  cases ht : l.tasks.get? g with
  | none => exact turn_refl hstop hends
  | some t =>
    obtain ⟨tables, queue⟩ := t
    cases queue with
    | nil => exact turn_refl hstop hends
    | cons c queue =>
      have hw := worked_onTask (l := { l with tasks := l.tasks.insert g ⟨tables, queue⟩ })
        (Table.get?_insert_self l.tasks g ⟨tables, queue⟩) fun p => p.command s c
      exact .quiet e hstop hends hw.running hw.generations

theorem turn_drop (l : Listener κ σ) (g : Nat) (conn : ConnId) :
    Turn l (l.drop s g conn) (.drop g conn) := by
  cases ht : l.tasks.get? g with
  | none =>
    rw [drop]
    rw [ht]
    exact turn_refl (by simp) fun _ => rfl
  | some t =>
    rw [drop_of_some ht]
    exact .quiet _ (by simp) (fun _ => rfl) rfl rfl

/-- A task is over when it leaves without connections. -/
theorem ends_leave_iff : Step.ends l g' (.leave g) = true ↔
    g' = g ∧ ∃ t, l.tasks.get? g = some t ∧ t.tables.byConn.keys = [] := by
  rw [Step.ends]
  by_cases hg : g' = g
  · subst hg
    cases l.tasks.get? g' <;> simp
  · simp [hg, Ne.symm hg]

theorem ends_finish_iff {order : List ConnId} : Step.ends l g' (.move (.finish g order)) = true ↔
    g' = g ∧ ∃ t, l.tasks.get? g = some t := by
  rw [Step.ends]
  by_cases hg : g' = g
  · subst hg
    cases l.tasks.get? g' <;> simp
  · simp [hg, Ne.symm hg]

theorem turn_leave (l : Listener κ σ) (g : Nat) : Turn l (l.leave g) (.leave g) := by
  by_cases hends : Step.ends l g (.leave g) = true
  · obtain ⟨-, t, ht, hkeys⟩ := ends_leave_iff.mp hends
    rw [leave_of_some ht, if_pos hkeys]
    refine .ended _ g (by simp) (fun g' => ?_) rfl rfl
    rw [ends_leave_iff]
    exact and_iff_left ⟨t, ht, hkeys⟩
  · have hsame : l.leave g = l := by
      cases ht : l.tasks.get? g with
      | none =>
        rw [leave]
        rw [ht]
      | some t =>
        rw [leave_of_some ht]
        exact if_neg fun hkeys => hends (ends_leave_iff.mpr ⟨rfl, t, ht, hkeys⟩)
    rw [hsame]
    refine turn_refl (by simp) fun g' => Bool.eq_false_iff.mpr fun hother => hends ?_
    obtain ⟨rfl, hother⟩ := ends_leave_iff.mp hother
    exact ends_leave_iff.mpr ⟨rfl, hother⟩

theorem turn_finish (s : Service κ σ) (order : List ConnId) (l : Listener κ σ) (g : Nat) :
    Turn l (l.finish s order g) (.move (.finish g order)) := by
  cases ht : l.tasks.get? g with
  | none =>
    rw [finish]
    rw [ht]
    refine turn_refl (by simp) fun g' => Bool.eq_false_iff.mpr fun hends => ?_
    obtain ⟨-, t, ht'⟩ := ends_finish_iff.mp hends
    rw [ht] at ht'
    cases ht'
  | some t =>
    refine .ended _ g (by simp) (fun g' => ?_) ?_ ?_
    · rw [ends_finish_iff]
      exact and_iff_left ⟨t, ht⟩
    · rw [finish]
      rw [ht]
    · rw [finish]
      rw [ht]

theorem turn_start (l : Listener κ σ) (address : Address) :
    Turn l (l.start (.ok address)).2 (.move (.start address)) := by
  cases hrunning : l.running with
  | none =>
    rw [start_of_none hrunning]
    exact .started address hrunning rfl rfl
  | some r =>
    rw [start_of_some hrunning]
    exact turn_refl (by simp) fun _ => rfl

/-- **Every step is one of the turns.** -/
theorem turn_step (s : Service κ σ) (l : Listener κ σ) (e : Step) : Turn l (l.step s e) e := by
  cases e with
  | drop g conn => exact turn_drop l g conn
  | leave g => exact turn_leave l g
  | move m =>
    cases m with
    | start address => exact turn_start l address
    | startFails reason =>
      show Turn l (l.start (.error reason)).2 _
      rw [start_error_snd]
      exact turn_refl (by simp) fun _ => rfl
    | shutdown => exact .stopped rfl rfl
    | send d => exact (alike_sendAll l [d]).turn (by simp) fun _ => rfl
    | disconnect conn => exact (alike_disconnect l conn).turn (by simp) fun _ => rfl
    | datagram g now address data =>
      exact turn_onTask g (fun p => p.datagram s now address data) (by simp) fun _ => rfl
    | serve g => exact turn_serve s g (by simp) fun _ => rfl
    | update g now order =>
      exact turn_onTask g (fun p => p.update s now order) (by simp) fun _ => rfl
    | finish g order => exact turn_finish s order l g

/-- A generation that is not running, and is not one to come, does not run again. -/
theorem running_ne_of_stopped (s : Service κ σ) (es : List Step) (hbegun : g ≤ l.generations)
    (hstopped : ∀ r, l.running = some r → r.generation ≠ g) :
    ∀ r, (steps s l es).running = some r → r.generation ≠ g := by
  induction es generalizing l with
  | nil => exact hstopped
  | cons e es ih =>
    rw [steps_cons]
    have hturn := turn_step s l e
    generalize l.step s e = l' at hturn ⊢
    cases hturn with
    | started address hnone hrunning hgenerations =>
      -- a new start has a number beyond all those that have begun
      refine ih (by omega) fun r hr => ?_
      rw [hrunning] at hr
      cases hr
      show l.generations + 1 ≠ g
      omega
    | stopped hrunning hgenerations =>
      refine ih (by omega) fun r hr => ?_
      rw [hrunning] at hr
      cases hr
    | ended _ g' _ _ hrunning hgenerations =>
      refine ih (by omega) fun r hr => hstopped r ?_
      rw [hrunning] at hr
      split at hr
      · cases hr
      · exact hr
    | quiet _ _ _ hrunning hgenerations =>
      refine ih (by omega) fun r hr => hstopped r ?_
      rw [← hrunning]
      exact hr

theorem takesOrders_iff : l.takesOrders g = true ↔ ∃ r, l.running = some r ∧ r.generation = g := by
  rw [takesOrders]
  cases l.running with
  | none => simp
  | some r => simp

/-- **A generation runs on until** a stop, or the end of its task. -/
theorem running_iff (s : Service κ σ) (es : List Step) {r : Running} (hrunning : l.running = some r)
    (hbegun : r.generation ≤ l.generations) :
    (steps s l es).running = some r ↔
      .move .shutdown ∉ es ∧ ended s r.generation l es = false := by
  induction es generalizing l with
  | nil => exact iff_of_true hrunning ⟨List.not_mem_nil, rfl⟩
  | cons e es ih =>
    -- once the entry is gone it does not come back, as later starts have later numbers
    have hgone : ∀ {l' : Listener κ σ}, l'.running = none → r.generation ≤ l'.generations →
        (steps s l' es).running ≠ some r := by
      intro l' hnone hle hr
      refine running_ne_of_stopped s es hle (fun r' hr' => ?_) r hr rfl
      rw [hnone] at hr'
      cases hr'
    have hturn := turn_step s l e
    rw [steps_cons, ended, List.mem_cons, not_or, Bool.or_eq_false_iff]
    generalize l.step s e = l' at hturn ⊢
    cases hturn with
    | started address hnone =>
      rw [hrunning] at hnone
      cases hnone
    | stopped hnone hgenerations =>
      exact iff_of_false (hgone hnone (by omega)) fun h => h.1.1 rfl
    | ended _ g hstop hends hrunning' hgenerations =>
      by_cases hg : r.generation = g
      · have htakes : l.takesOrders g = true := takesOrders_iff.mpr ⟨r, hrunning, hg⟩
        rw [if_pos htakes] at hrunning'
        refine iff_of_false (hgone hrunning' (by omega)) fun h => ?_
        rw [(hends _).mpr hg] at h
        cases h.2.1
      · have htakes : ¬l.takesOrders g = true := by
          rw [takesOrders_iff]
          rintro ⟨r', hr', hg'⟩
          cases hrunning.symm.trans hr'
          exact hg hg'
        rw [if_neg htakes, hrunning] at hrunning'
        have hother : e.ends l r.generation = false := by
          rw [← Bool.not_eq_true, hends]
          exact hg
        rw [ih hrunning' (by omega)]
        simp [Ne.symm hstop, hother]
    | quiet _ hstop hends hrunning' hgenerations =>
      rw [hrunning] at hrunning'
      rw [ih hrunning' (by omega)]
      simp [Ne.symm hstop, hends]

/-- What is running has been started, and there has been no start since. -/
theorem exists_start (s : Service κ σ) (hl : l.running = none) (es : List Step) {r : Running}
    (hr : (steps s l es).running = some r) :
    ∃ before after, es = before ++ .move (.start r.address) :: after ∧
      (steps s l before).running = none ∧
      r.generation = (steps s l before).generations + 1 := by
  induction es using List.reverseRecOn with
  | nil =>
    rw [show (steps s l []).running = none from hl] at hr
    cases hr
  | append_singleton es e ih =>
    rw [steps_append] at hr
    change ((steps s l es).step s e).running = some r at hr
    -- either this is the start, or the entry was there before
    have hearlier : (steps s l es).running = some r → ∃ before after,
        es ++ [e] = before ++ .move (.start r.address) :: after ∧
          (steps s l before).running = none ∧
          r.generation = (steps s l before).generations + 1 := by
      intro hbefore
      obtain ⟨before, after, rfl, hstart⟩ := ih hbefore
      exact ⟨before, after ++ [e], by simp, hstart⟩
    have hturn := turn_step s (steps s l es) e
    generalize (steps s l es).step s e = l' at hturn hr
    cases hturn with
    | started address hnone hrunning =>
      rw [hrunning] at hr
      cases hr
      exact ⟨es, [], rfl, hnone, rfl⟩
    | stopped hnone =>
      rw [hnone] at hr
      cases hr
    | ended _ g _ _ hrunning =>
      rw [hrunning] at hr
      split at hr
      · cases hr
      · exact hearlier hr
    | quiet _ _ _ hrunning => exact hearlier (hrunning ▸ hr)

/-! ## Generations -/

/-- A generation takes orders if it is the latest and the listener is active. -/
theorem Divided.takesOrders_iff (h : Divided l) :
    l.takesOrders g = true ↔ l.isActive = true ∧ g = l.generations := by
  rw [Listener.takesOrders_iff, isActive, Option.isSome_iff_exists]
  constructor
  · rintro ⟨r, hr, rfl⟩
    exact ⟨⟨r, hr⟩, h.latest r hr⟩
  · rintro ⟨⟨r, hr⟩, rfl⟩
    exact ⟨r, hr, h.latest r hr⟩

/-- An order goes into the queue of the latest generation's task, which is there. -/
theorem Divided.enqueue (h : Divided l) (hactive : l.isActive = true) (c : Command) :
    ∃ t, l.tasks.get? l.generations = some t ∧ l.enqueue c = .ok { l with
      tasks := l.tasks.insert l.generations { t with queue := t.queue ++ [c] } } := by
  obtain ⟨r, hr⟩ := Option.isSome_iff_exists.mp hactive
  have hlatest := h.latest r hr
  have hmanned := h.manned r hr
  rw [hlatest, tables, Option.isSome_map] at hmanned
  obtain ⟨t, ht⟩ := Option.isSome_iff_exists.mp hmanned
  have hupdate : (l.tasks.update l.generations fun t => { t with queue := t.queue ++ [c] }) =
      l.tasks.insert l.generations { t with queue := t.queue ++ [c] } := by
    refine Table.ext_get? fun g => ?_
    rw [Table.get?_update_ite, Table.get?_insert_ite]
    split
    · rename_i hg
      rw [hg, ht]
      rfl
    · rfl
  refine ⟨t, ht, ?_⟩
  rw [Listener.enqueue]
  rw [hr]
  simp only [hlatest, hupdate]

/-- **Old tasks never stop a newer listener**, in whatever order starts, stops, orders, datagrams
and the ends of tasks come, and whatever comes in the midst of an end.

A generation is the running one from its start until a stop or the end of its task, so the listener
is active exactly if neither has come since the latest generation was started. Only that generation
takes orders, and its task is there to carry them out. A start of an active listener binds nothing,
changes nothing and answers where it listens; one that cannot bind a socket changes nothing either.
The end of a task, and each part of it, leaves other generations alone: the running entry, the
tasks, and the connections that senders see. -/
theorem generations_apart (s : Service κ σ) (state : σ) (es : List Step) :
    let l := steps s (new state) es
    (∀ before address after, es = before ++ .move (.start address) :: after →
      let b := steps s (new state) before
      b.running = none →
      (l.running = some ⟨b.generations + 1, address⟩ ↔
        .move .shutdown ∉ after ∧
          ended s (b.generations + 1) (b.start (.ok address)).2 after = false)) ∧
    (l.isActive = true ↔
      ∃ before address after, es = before ++ .move (.start address) :: after ∧
        let b := steps s (new state) before
        b.running = none ∧ b.generations + 1 = l.generations ∧
          .move .shutdown ∉ after ∧ ended s l.generations (b.start (.ok address)).2 after = false) ∧
    ((∀ g, l.takesOrders g = true ↔ l.isActive = true ∧ g = l.generations) ∧
      ∀ c, (l.isActive = false → l.enqueue c = .error .notRunning) ∧
        (l.isActive = true → ∃ t, l.tasks.get? l.generations = some t ∧ l.enqueue c = .ok { l with
          tasks := l.tasks.insert l.generations { t with queue := t.queue ++ [c] } })) ∧
    (∀ r bound, l.running = some r → l.start bound = (.ok ⟨r.address, true⟩, l)) ∧
    (∀ reason, l.running = none → l.start (.error reason) = (.error (.bindFailed reason), l)) ∧
    ∀ e g, e.tears = some g → Spares l g (l.step s e) ∧
      ∀ g' conn address, g' ≠ g → l.addressIn g' conn = some address →
        (l.step s e).shared.peers.get? conn = some address := by
  intro l
  have hl : Divided l := divided_steps s state es
  have hrunning : ∀ before address after, es = before ++ .move (.start address) :: after →
      (steps s (new state) before).running = none →
      (l.running = some ⟨(steps s (new state) before).generations + 1, address⟩ ↔
        .move .shutdown ∉ after ∧ ended s ((steps s (new state) before).generations + 1)
          ((steps s (new state) before).start (.ok address)).2 after = false) := by
    intro before address after hes hnone
    have hsplit : l = steps s ((steps s (new state) before).start (.ok address)).2 after := by
      show steps s (new state) es = _
      rw [hes, steps_append, steps_cons]
      rfl
    rw [hsplit, start_of_none hnone]
    exact running_iff s after rfl (Nat.le_refl _)
  refine ⟨hrunning, ⟨?_, ?_⟩, ⟨fun g => hl.takesOrders_iff, fun c => ⟨?_, fun hactive =>
    hl.enqueue hactive c⟩⟩, fun r bound hr => start_of_some hr bound,
    fun reason hnone => start_of_error hnone reason, ?_⟩
  · intro hactive
    obtain ⟨r, hr⟩ := Option.isSome_iff_exists.mp hactive
    obtain ⟨before, after, hes, hnone, hgeneration⟩ := exists_start s rfl es hr
    have hlatest : (steps s (new state) before).generations + 1 = l.generations :=
      hgeneration.symm.trans (hl.latest r hr)
    have hentry : l.running = some ⟨(steps s (new state) before).generations + 1, r.address⟩ := by
      rw [← hgeneration]
      exact hr
    obtain ⟨hstop, hended⟩ := (hrunning before r.address after hes hnone).mp hentry
    rw [hlatest] at hended
    exact ⟨before, r.address, after, hes, hnone, hlatest, hstop, hended⟩
  · rintro ⟨before, address, after, hes, hnone, hlatest, hstop, hended⟩
    rw [← hlatest] at hended
    rw [isActive, (hrunning before address after hes hnone).mpr ⟨hstop, hended⟩]
    rfl
  · intro hidle
    have hnone : l.running = none := Option.not_isSome_iff_eq_none.mp (Bool.eq_false_iff.mp hidle)
    rw [enqueue]
    rw [hnone]
  · intro e g he
    have hspares := spares_step s l he
    exact ⟨hspares, fun g' conn address hg hget => hspares.visible hl hg hget⟩

/-- Where a listener listens, -/
def home : Address := ⟨.localhost, 10086⟩

/-- and where it listens when it is started again. -/
def elsewhere : Address := ⟨.localhost, 10087⟩

/-- What comes in for the task of a generation when a client begins a conversation. -/
def hello (g client : Nat) : List Step :=
  ((Kcp.Conversation.start 1).send (frame 5 [])).1.map fun data =>
    .move (.datagram g 0 (clientHome client) data)

/-- A client speaks to the first generation, which is told to stop. -/
def firstLife : List Step := [.move (.start home)] ++ hello 1 0 ++ [.move .shutdown]

/-- The second is started and hears another client; then the first closes its connection and is
over, and somebody starts again. -/
def overlapping : List Step :=
  firstLife ++ .move (.start elsewhere) ::
    (hello 2 1 ++ [.drop 1 ⟨1⟩, .leave 1, .move (.start home), .move (.startFails "in use")])

/-- The stopped listener cannot be started where something else listens. The second generation goes
on where it listens, and senders still see its client. -/
theorem generations_apart_overlapping :
    let s := Exchange.service .standard (Handler.echo [] [])
    let l₁ := steps s (new ()) firstLife
    let l := steps s (new ()) overlapping
    l₁.running = none ∧ l₁.start (.error "in use") = (.error (.bindFailed "in use"), l₁) ∧
      l.running = some ⟨2, elsewhere⟩ ∧
      l.isActive = true ∧ l.tasks.keys = [2] ∧ l.shared.peers.keys = [⟨2⟩] ∧
      l.start (.ok home) = (.ok ⟨elsewhere, true⟩, l) ∧
      Step.tears (.drop 1 ⟨2⟩) = some 1 ∧ l.addressIn 2 ⟨2⟩ = some (clientHome 1) ∧
      (l.step s (.drop 1 ⟨2⟩)).shared.peers.get? ⟨2⟩ = some (clientHome 1) := by
  intro s l₁ l
  obtain ⟨hentry, -, -, hstart, -, htears⟩ := generations_apart s () overlapping
  obtain ⟨-, -, -, -, hfails, -⟩ := generations_apart s () firstLife
  have hidle : l₁.running = none := by decide +kernel
  have hfirst : (steps s (new ()) firstLife).generations = 1 := by decide +kernel
  have hsince := hentry firstLife elsewhere _ rfl hidle
  rw [hfirst] at hsince
  have hrunning : l.running = some ⟨2, elsewhere⟩ :=
    hsince.mpr ⟨by decide +kernel, by decide +kernel⟩
  have hclient : l.addressIn 2 ⟨2⟩ = some (clientHome 1) := by decide +kernel
  have hvisible := (htears (.drop 1 ⟨2⟩) 1 rfl).2 2 ⟨2⟩ _ (by decide) hclient
  exact ⟨hidle, hfails "in use" hidle, hrunning, by decide +kernel, by decide +kernel,
    by decide +kernel, hstart _ (.ok home) hrunning, rfl, hclient, hvisible⟩

end FrameSync.Net.Battle.Listener
