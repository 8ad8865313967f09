import FrameSync.Net.Battle.Listener
import FrameSync.Proofs.Net.BattleSessions

/-!
# Several poll tasks at once

The tasks of a listener that has been stopped and started again share the table in which senders
look up a connection. Whatever a task does in it, up to its end, it does to connections of its own:
it closes only what its own index has, and opens only what has a new number (`Confined`). So the
open connections stay divided among the tasks (`Divided`), and every move of a listener keeps them
so.

The end of a task is made of parts, `drop` for each connection and `leave` at last, with which other
moves may mingle; `finish` is all of them with nothing in between (`finish_eq_leave`).
-/

set_option autoImplicit false

namespace FrameSync.Net.Battle

open Wire

/-! ## One task among others -/

namespace Poller

variable {κ σ : Type} {s : Service κ σ} {p q q' : Poller κ σ}

/-- A connection that may be another task's: its number has been given out, and not to this task. -/
def Foreign (p : Poller κ σ) (conn : ConnId) : Prop :=
  p.byConn.get? conn = none ∧ conn.num ≤ p.issued

/-- What a task at work has left alone and kept up since it was `p`. Numbers are counted up.
Connections of others are not taken in, and stay visible as they were; of all others the senders see
what the task has. The connections of the task have been given a number. -/
structure Confined (p q : Poller κ σ) : Prop where
  issued_le : p.issued ≤ q.issued
  foreign : ∀ conn, p.Foreign conn →
    q.byConn.get? conn = none ∧ q.peers.get? conn = p.peers.get? conn
  mirrored : ∀ conn, ¬p.Foreign conn → q.peers.get? conn = q.byConn.get? conn
  numbered : ∀ conn address, q.byConn.get? conn = some address → conn.num ≤ q.issued

namespace Confined

/-- What neither opens nor closes a connection. -/
theorem of_same (h : Confined p q) (hbyConn : q'.byConn = q.byConn) (hpeers : q'.peers = q.peers)
    (hissued : q'.issued = q.issued) : Confined p q' where
  issued_le := hissued ▸ h.issued_le
  foreign := fun conn hforeign => by
    rw [hbyConn, hpeers]
    exact h.foreign conn hforeign
  mirrored := fun conn hforeign => by
    rw [hbyConn, hpeers]
    exact h.mirrored conn hforeign
  numbered := fun conn address hget => by
    rw [hissued]
    rw [hbyConn] at hget
    exact h.numbered conn address hget

/-- **A task closes connections of its own only.** -/
theorem close (h : Confined p q) (s : Service κ σ) (conn : ConnId) :
    Confined p (q.close s conn) := by
  cases hget : q.byConn.get? conn with
  | none =>
    rw [Poller.close]
    rw [hget]
    exact h
  | some address =>
    -- a foreign connection is not in the index of this task
    have hown : ¬p.Foreign conn := by
      intro hforeign
      rw [(h.foreign conn hforeign).1] at hget
      cases hget
    rw [close_of_some hget]
    refine ⟨h.issued_le, ?_, ?_, ?_⟩
    · intro c hforeign
      have hc : conn ≠ c := fun heq => hown (heq ▸ hforeign)
      obtain ⟨hnone, hpeers⟩ := h.foreign c hforeign
      exact ⟨(Table.get?_erase_of_ne _ hc).trans hnone, (Table.get?_erase_of_ne _ hc).trans hpeers⟩
    · intro c hforeign
      show (q.peers.erase conn).get? c = (q.byConn.erase conn).get? c
      rw [Table.get?_erase_ite, Table.get?_erase_ite, h.mirrored c hforeign]
    · intro c a hc
      change (q.byConn.erase conn).get? c = some a at hc
      rw [Table.get?_erase_ite] at hc
      split at hc
      · cases hc
      · exact h.numbered c a hc

/-- **A task opens connections with new numbers only.** -/
theorem openSession (h : Confined p q) (s : Service κ σ) (now : Nat) (address : Address)
    (conv : UInt32) : Confined p (q.openSession s now address conv) := by
  refine ⟨Nat.le_succ_of_le h.issued_le, ?_, ?_, ?_⟩
  · intro c hforeign
    -- numbers are issued in order, and the foreign ones were issued before
    have hc : (⟨q.issued + 1⟩ : ConnId) ≠ c := by
      rintro rfl
      have hle : q.issued + 1 ≤ p.issued := hforeign.2
      have := h.issued_le
      omega
    obtain ⟨hnone, hpeers⟩ := h.foreign c hforeign
    exact ⟨(Table.get?_insert_of_ne _ _ hc).trans hnone,
      (Table.get?_insert_of_ne _ _ hc).trans hpeers⟩
  · intro c hforeign
    show (q.peers.insert ⟨q.issued + 1⟩ address).get? c =
      (q.byConn.insert ⟨q.issued + 1⟩ address).get? c
    rw [Table.get?_insert_ite, Table.get?_insert_ite, h.mirrored c hforeign]
  · intro c a hc
    change (q.byConn.insert ⟨q.issued + 1⟩ address).get? c = some a at hc
    rw [Table.get?_insert_ite] at hc
    split at hc
    · rename_i heq
      rw [heq]
      exact Nat.le_refl _
    · exact Nat.le_succ_of_le (h.numbered c a hc)

theorem ensureSession (h : Confined p q) (s : Service κ σ) (now : Nat) (address : Address)
    (conv : UInt32) : Confined p (q.ensureSession s now address conv) := by
  rw [Poller.ensureSession]
  cases q.sessions.get? address with
  | none => exact h.openSession s now address conv
  | some session =>
    simp only
    split
    · exact h
    · exact (h.close s session.conn).openSession s now address conv

/-- A datagram may close a connection, open one, and close that one again. -/
theorem datagram (h : Confined p q) (s : Service κ σ) (now : Nat) (address : Address)
    (data : Bytes) : Confined p (q.datagram s now address data) := by
  by_cases hdata : data.length < leastDatagram
  · rw [datagram_of_short hdata]
    exact h
  have hlong : leastDatagram ≤ data.length := Nat.not_lt.mp hdata
  have hensured := h.ensureSession s now address (s.engine.conversation data)
  generalize hq : q.ensureSession s now address (s.engine.conversation data) = r at hensured
  cases hfound : r.sessions.get? address with
  | none =>
    rw [Poller.datagram, if_neg hdata]
    simp only [hq, hfound]
    exact hensured
  | some session =>
    cases hinput : s.engine.input session.engine data with
    | error reason =>
      have htold : Confined p (r.fail s session.conn (.kcp reason)) :=
        hensured.of_same rfl rfl rfl
      rw [datagram_of_error hlong hq hfound hinput]
      exact htold.close s session.conn
    | ok outcome =>
      obtain ⟨messages, engine⟩ := outcome
      obtain ⟨-, hbyConn, hpeers, hissued, -⟩ :=
        dispatch_spec s session.conn (r.heard address session engine now) messages
      have hgiven := hensured.of_same hbyConn hpeers hissued
      rw [datagram_of_ok hlong hq hfound hinput]
      split
      · exact hgiven
      · exact hgiven.close s session.conn

theorem command (h : Confined p q) (s : Service κ σ) (c : Command) :
    Confined p (q.command s c) := by
  cases c with
  | disconnect conn => exact h.close s conn
  | send d =>
    rw [Poller.command]
    cases q.byConn.get? d.conn with
    | none => exact h
    | some address =>
      cases hsession : q.sessions.get? address with
      | none =>
        simp only [hsession]
        exact h
      | some session =>
        simp only [hsession]
        exact h.of_same rfl rfl rfl

theorem tend (h : Confined p q) (s : Service κ σ) (now : Nat) (conn : ConnId) :
    Confined p (q.tend s now conn) := by
  rw [Poller.tend]
  cases q.byConn.get? conn with
  | none => exact h
  | some address =>
    cases hsession : q.sessions.get? address with
    | none =>
      simp only [hsession]
      exact h
    | some session =>
      simp only [hsession]
      split
      · exact h.close s conn
      · cases s.engine.update session.engine (now / Tick.millisecond) with
        | none => exact h.close s conn
        | some due => exact h.of_same rfl rfl rfl

theorem update (h : Confined p q) (s : Service κ σ) (now : Nat) (order : List ConnId) :
    Confined p (q.update s now order) :=
  List.foldlRecOn _ _ h fun _ hq conn _ => hq.tend s now conn

end Confined

/-- What closing connections one after the other leaves of the index. -/
theorem byConn_closeAll (s : Service κ σ) (conns : List ConnId) (p : Poller κ σ) (c : ConnId) :
    (conns.foldl (close s) p).byConn.get? c = if c ∈ conns then none else p.byConn.get? c := by
  induction conns generalizing p with
  | nil => rfl
  | cons conn rest ih =>
    have hindex : (p.close s conn).byConn.get? c =
        if c = conn then none else p.byConn.get? c := by
      cases hget : p.byConn.get? conn with
      | none =>
        rw [close]
        rw [hget]
        by_cases hc : c = conn
        · rw [if_pos hc, hc, hget]
        · rw [if_neg hc]
      | some address =>
        rw [close_of_some hget]
        exact Table.get?_erase_ite _ _ _
    rw [List.foldl_cons, ih, hindex]
    by_cases hc : c = conn <;> simp [hc]

/-- A task that has closed all its connections has none. -/
theorem byConn_teardown (s : Service κ σ) (p : Poller κ σ) (order : List ConnId) :
    (p.teardown s order).byConn = Table.empty := by
  refine Table.ext_get? fun c => (byConn_closeAll s (p.byConn.keysBy order) p c).trans ?_
  split
  · rfl
  · rename_i hc
    exact Option.eq_none_iff_forall_ne_some.mpr fun a ha => hc (Table.mem_keysBy_iff.mpr ⟨a, ha⟩)

end Poller

/-! ## The tasks of a listener -/

namespace Listener

variable {κ σ : Type} {s : Service κ σ} {l l' l'' : Listener κ σ} {g g' : Nat} {conn : ConnId}
  {address address' : Address} {t : PollTask κ} {p' : Poller κ σ}

/-- What the task of a generation works with. -/
def tables (l : Listener κ σ) (g : Nat) : Option (Tables κ) := (l.tasks.get? g).map PollTask.tables

/-- The address of a connection of a generation's task. -/
def addressIn (l : Listener κ σ) (g : Nat) (conn : ConnId) : Option Address :=
  (l.tables g).bind fun t => t.byConn.get? conn

/-- How the connections that senders see are divided among the tasks. The running generation is the
latest and has a task; no task is of a generation to come. What senders see is some task's, it is no
other task's, and it has been given a number. -/
structure Divided (l : Listener κ σ) : Prop where
  latest : ∀ r, l.running = some r → r.generation = l.generations
  manned : ∀ r, l.running = some r → (l.tables r.generation).isSome = true
  begun : ∀ g, (l.tables g).isSome = true → g ≤ l.generations
  visible : ∀ conn address, l.shared.peers.get? conn = some address ↔
    ∃ g, l.addressIn g conn = some address
  apart : ∀ g g' conn address address', l.addressIn g conn = some address →
    l.addressIn g' conn = some address' → g = g'
  numbered : ∀ g conn address, l.addressIn g conn = some address → conn.num ≤ l.shared.issued

/-- Two listeners are alike but for the orders that wait. -/
structure Alike (l l' : Listener κ σ) : Prop where
  running : l'.running = l.running
  generations : l'.generations = l.generations
  shared : l'.shared = l.shared
  tables : ∀ g, l'.tables g = l.tables g

theorem Alike.refl (l : Listener κ σ) : Alike l l := ⟨rfl, rfl, rfl, fun _ => rfl⟩

theorem Alike.trans (h : Alike l l') (h' : Alike l' l'') : Alike l l'' :=
  ⟨h'.running.trans h.running, h'.generations.trans h.generations, h'.shared.trans h.shared,
    fun g => (h'.tables g).trans (h.tables g)⟩

/-- **An order is taken by the running generation alone.** -/
theorem enqueue_eq_ok {c : Command} (h : l.enqueue c = .ok l') :
    ∃ r, l.running = some r ∧ l' = { l with
      tasks := l.tasks.update r.generation fun t => { t with queue := t.queue ++ [c] } } := by
  rw [enqueue] at h
  cases hrunning : l.running with
  | none =>
    rw [hrunning] at h
    cases h
  | some r =>
    rw [hrunning] at h
    exact ⟨r, rfl, (Except.ok.inj h).symm⟩

theorem alike_enqueue {c : Command} (h : l.enqueue c = .ok l') : Alike l l' := by
  obtain ⟨r, -, rfl⟩ := enqueue_eq_ok h
  refine ⟨rfl, rfl, rfl, fun g => ?_⟩
  show ((l.tasks.update _ _).get? g).map PollTask.tables = (l.tasks.get? g).map PollTask.tables
  rw [Table.get?_update_ite]
  split
  · rw [Option.map_map]
    rfl
  · rfl

theorem alike_send {d : Delivery} (h : l.send d = .ok l') : Alike l l' := by
  rw [send] at h
  split at h
  · cases h
  · split at h
    · cases h
    · exact alike_enqueue h

theorem alike_sendAll (l : Listener κ σ) (ds : List Delivery) : Alike l (l.sendAll ds) := by
  refine List.foldlRecOn ds _ (Alike.refl l) fun l' hl' d _ => ?_
  cases hsend : l'.send d with
  | ok l'' => exact hl'.trans (alike_send hsend)
  | error e => exact hl'

theorem alike_disconnect (l : Listener κ σ) (conn : ConnId) : Alike l (l.disconnect conn) := by
  rw [disconnect]
  cases hsend : l.enqueue (.disconnect conn) with
  | ok l' => exact alike_enqueue hsend
  | error e => exact Alike.refl l

/-- The task of a generation has done something, and come to be `p'`. -/
structure Worked (l : Listener κ σ) (g : Nat) (p' : Poller κ σ) (l' : Listener κ σ) : Prop where
  running : l'.running = l.running
  generations : l'.generations = l.generations
  own : l'.tables g = some p'.toTables
  others : ∀ g', g' ≠ g → l'.tables g' = l.tables g'
  peers : l'.shared.peers = p'.peers
  issued : l'.shared.issued = p'.issued

theorem Worked.alike (h : Worked l g p' l') (h' : Alike l' l'') : Worked l g p' l'' where
  running := h'.running.trans h.running
  generations := h'.generations.trans h.generations
  own := (h'.tables g).trans h.own
  others := fun g' hg => (h'.tables g').trans (h.others g' hg)
  peers := (congrArg Shared.peers h'.shared).trans h.peers
  issued := (congrArg Shared.issued h'.shared).trans h.issued

/-- The task has been put back with other tables. -/
theorem worked_insert (l : Listener κ σ) (g : Nat) (t : PollTask κ) (p' : Poller κ σ)
    (shared : Shared σ) (hpeers : shared.peers = p'.peers) (hissued : shared.issued = p'.issued) :
    Worked l g p' { l with tasks := l.tasks.insert g { t with tables := p'.toTables }, shared } where
  running := rfl
  generations := rfl
  own := by
    show ((l.tasks.insert g _).get? g).map PollTask.tables = _
    rw [Table.get?_insert_self]
    rfl
  others := fun g' hg => congrArg (Option.map PollTask.tables)
    (Table.get?_insert_of_ne _ _ (Ne.symm hg))
  peers := hpeers
  issued := hissued

theorem worked_onTask (ht : l.tasks.get? g = some t) (f : Poller κ σ → Poller κ σ) :
    Worked l g (f ⟨t.tables, l.shared⟩) (l.onTask g f) := by
  rw [onTask]
  simp only [ht]
  refine Worked.alike ?_ (alike_sendAll _ _)
  exact worked_insert l g t (f ⟨t.tables, l.shared⟩) _ rfl rfl

/-! ## The end of a task -/

/-- The task of a generation closes one of its connections. -/
def drop (s : Service κ σ) (l : Listener κ σ) (generation : Nat) (conn : ConnId) : Listener κ σ :=
  match l.tasks.get? generation with
  | none => l
  | some t =>
    let p := Poller.close s ⟨t.tables, l.shared⟩ conn
    { l with
      tasks := l.tasks.insert generation { t with tables := p.toTables }
      shared := p.toShared }

/-- The task of a generation that has no connection left is over. -/
def leave (l : Listener κ σ) (generation : Nat) : Listener κ σ :=
  match l.tasks.get? generation with
  | none => l
  | some t =>
    if t.tables.byConn.keys = [] then
      { l with
        running := if l.takesOrders generation then none else l.running
        tasks := l.tasks.erase generation }
    else l

theorem drop_of_some (ht : l.tasks.get? g = some t) (conn : ConnId) :
    l.drop s g conn = { l with
      tasks := l.tasks.insert g
        { t with tables := (Poller.close s ⟨t.tables, l.shared⟩ conn).toTables }
      shared := (Poller.close s ⟨t.tables, l.shared⟩ conn).toShared } := by
  rw [drop]
  rw [ht]

theorem leave_of_some (ht : l.tasks.get? g = some t) :
    l.leave g = if t.tables.byConn.keys = [] then
      { l with
        running := if l.takesOrders g then none else l.running
        tasks := l.tasks.erase g }
      else l := by
  rw [leave]
  rw [ht]

/-- Connections are closed one after the other. -/
theorem foldl_drop (conns : List ConnId) (ht : l.tasks.get? g = some t) :
    conns.foldl (fun l conn => l.drop s g conn) l = { l with
      tasks := l.tasks.insert g
        { t with tables := (conns.foldl (Poller.close s) ⟨t.tables, l.shared⟩).toTables }
      shared := (conns.foldl (Poller.close s) ⟨t.tables, l.shared⟩).toShared } := by
  induction conns generalizing l t with
  | nil =>
    -- the task is put back as it was
    have hsame : l.tasks.insert g t = l.tasks := by
      refine Table.ext_get? fun g' => ?_
      rw [Table.get?_insert_ite]
      split
      · rename_i heq
        rw [heq, ht]
      · rfl
    exact (congrArg (fun tasks => { l with tasks }) hsame).symm
  | cons conn rest ih =>
    rw [List.foldl_cons, drop_of_some ht, ih (Table.get?_insert_self _ _ _)]
    simp only [Table.insert_insert]
    rfl

/-- **To end at once is to end in parts**, with nothing in between. -/
theorem finish_eq_leave (s : Service κ σ) (order : List ConnId) (ht : l.tasks.get? g = some t) :
    l.finish s order g =
      ((t.tables.byConn.keysBy order).foldl (fun l conn => l.drop s g conn) l).leave g := by
  have hempty : (Poller.teardown s ⟨t.tables, l.shared⟩ order).byConn = Table.empty :=
    Poller.byConn_teardown s _ order
  have herase : ∀ t' : PollTask κ, (l.tasks.insert g t').erase g = l.tasks.erase g := by
    intro t'
    refine Table.ext_get? fun g' => ?_
    rw [Table.get?_erase_ite, Table.get?_erase_ite, Table.get?_insert_ite]
    split
    · rfl
    · rfl
  have hkeys : ((t.tables.byConn.keysBy order).foldl (Poller.close s)
      ⟨t.tables, l.shared⟩).byConn.keys = [] := congrArg Table.keys hempty
  rw [foldl_drop _ ht, leave_of_some (Table.get?_insert_self _ _ _), if_pos hkeys, finish]
  simp only [ht, herase]
  rfl

/-! ## The division is kept -/

theorem start_of_some {r : Running} (h : l.running = some r) (bound : Except String Address) :
    l.start bound = (.ok ⟨r.address, true⟩, l) := by
  rw [start.eq_def]
  rw [h]

theorem start_of_error (h : l.running = none) (reason : String) :
    l.start (.error reason) = (.error (.bindFailed reason), l) := by
  rw [start.eq_def]
  rw [h]

/-- A start that fails changes nothing, whether or not the listener is running. -/
theorem start_error_snd (l : Listener κ σ) (reason : String) : (l.start (.error reason)).2 = l := by
  cases hrunning : l.running with
  | some r => rw [start_of_some hrunning]
  | none => rw [start_of_error hrunning]

theorem start_of_none (h : l.running = none) (address : Address) :
    l.start (.ok address) = (.ok ⟨address, false⟩, { l with
      running := some ⟨l.generations + 1, address⟩
      generations := l.generations + 1
      tasks := l.tasks.insert (l.generations + 1) ⟨.empty, []⟩ }) := by
  rw [start.eq_def]
  rw [h]

theorem tables_of_some (ht : l.tasks.get? g = some t) : l.tables g = some t.tables :=
  congrArg (Option.map PollTask.tables) ht

theorem addressIn_of_tables {tables : Tables κ} (ht : l.tables g = some tables) (conn : ConnId) :
    l.addressIn g conn = tables.byConn.get? conn := by
  rw [addressIn, ht, Option.bind_some]

theorem addressIn_congr (h : l'.tables g = l.tables g) (conn : ConnId) :
    l'.addressIn g conn = l.addressIn g conn := by
  rw [addressIn, addressIn, h]

namespace Divided

theorem new (state : σ) : Divided (new state : Listener κ σ) where
  latest := fun r h => by cases h
  manned := fun r h => by cases h
  begun := fun g h => by cases h
  visible := fun conn address => by
    refine iff_of_false (by simp [Listener.new, Shared.new, Table.get?, Table.empty, Table.lookup]) ?_
    rintro ⟨g, hg⟩
    cases hg
  apart := fun g g' conn address address' h => by cases h
  numbered := fun g conn address h => by cases h

/-- As long as every connection stays with its task, the tasks and the running entry are all there
is to look at. -/
theorem of_address (h : Divided l) (hshared : l'.shared = l.shared)
    (haddress : ∀ g conn, l'.addressIn g conn = l.addressIn g conn)
    (hlatest : ∀ r, l'.running = some r → r.generation = l'.generations)
    (hmanned : ∀ r, l'.running = some r → (l'.tables r.generation).isSome = true)
    (hbegun : ∀ g, (l'.tables g).isSome = true → g ≤ l'.generations) : Divided l' where
  latest := hlatest
  manned := hmanned
  begun := hbegun
  visible := by
    simp only [hshared, haddress]
    exact h.visible
  apart := by
    simp only [haddress]
    exact h.apart
  numbered := by
    simp only [hshared, haddress]
    exact h.numbered

theorem alike (h : Divided l) (ha : Alike l l') : Divided l' := by
  refine h.of_address ha.shared (fun g conn => addressIn_congr (ha.tables g) conn) ?_ ?_ ?_
  · rw [ha.running, ha.generations]
    exact h.latest
  · intro r hr
    rw [ha.running] at hr
    rw [ha.tables]
    exact h.manned r hr
  · intro g hg
    rw [ha.tables] at hg
    rw [ha.generations]
    exact h.begun g hg

/-- A task finds its own connections among those that senders see. -/
theorem confined (h : Divided l) {tables : Tables κ} (ht : l.tables g = some tables) :
    Poller.Confined (⟨tables, l.shared⟩ : Poller κ σ) ⟨tables, l.shared⟩ where
  issued_le := Nat.le_refl _
  foreign := fun conn hforeign => ⟨hforeign.1, rfl⟩
  mirrored := by
    intro conn hforeign
    show l.shared.peers.get? conn = tables.byConn.get? conn
    have hmine := addressIn_of_tables ht conn
    cases hget : tables.byConn.get? conn with
    | some address => exact (h.visible conn address).mpr ⟨g, hmine.trans hget⟩
    | none =>
      -- the number has not been given out, so nobody has the connection
      refine Option.eq_none_iff_forall_ne_some.mpr fun address hpeer => hforeign ⟨hget, ?_⟩
      obtain ⟨g', hg'⟩ := (h.visible conn address).mp hpeer
      exact h.numbered g' conn address hg'
  numbered := fun conn address hget =>
    h.numbered g conn address ((addressIn_of_tables ht conn).trans hget)

/-- **What a task does to its own connections** leaves the others with theirs. -/
theorem worked (h : Divided l) {tables : Tables κ} (ht : l.tables g = some tables)
    (hconfined : Poller.Confined ⟨tables, l.shared⟩ p') (hw : Worked l g p' l') : Divided l' := by
  have hown : ∀ conn, l'.addressIn g conn = p'.byConn.get? conn := addressIn_of_tables hw.own
  have hothers : ∀ g', g' ≠ g → ∀ conn, l'.addressIn g' conn = l.addressIn g' conn :=
    fun g' hg conn => addressIn_congr (hw.others g' hg) conn
  -- the connections of the others are foreign to this task
  have hforeign : ∀ g', g' ≠ g → ∀ conn address, l.addressIn g' conn = some address →
      (⟨tables, l.shared⟩ : Poller κ σ).Foreign conn := by
    intro g' hg conn address hget
    refine ⟨Option.eq_none_iff_forall_ne_some.mpr fun address' hmine => hg ?_,
      h.numbered g' conn address hget⟩
    exact h.apart g' g conn address address' hget ((addressIn_of_tables ht conn).trans hmine)
  refine ⟨?_, ?_, ?_, ?_, ?_, ?_⟩
  · rw [hw.running, hw.generations]
    exact h.latest
  · intro r hr
    rw [hw.running] at hr
    by_cases hg : r.generation = g
    · rw [hg, hw.own]
      rfl
    · rw [hw.others _ hg]
      exact h.manned r hr
  · intro g' hg'
    rw [hw.generations]
    refine h.begun g' ?_
    by_cases hg : g' = g
    · rw [hg, ht]
      rfl
    · rwa [hw.others g' hg] at hg'
  · intro conn address
    rw [hw.peers]
    by_cases hconn : (⟨tables, l.shared⟩ : Poller κ σ).Foreign conn
    · obtain ⟨hnone, hpeers⟩ := hconfined.foreign conn hconn
      rw [hpeers]
      refine (h.visible conn address).trans (exists_congr fun g' => ?_)
      by_cases hg : g' = g
      · rw [hg, hown, hnone, addressIn_of_tables ht, hconn.1]
      · rw [hothers g' hg]
    · rw [hconfined.mirrored conn hconn]
      constructor
      · intro hget
        exact ⟨g, (hown conn).trans hget⟩
      · rintro ⟨g', hg'⟩
        by_cases hg : g' = g
        · rw [← hown, ← hg]
          exact hg'
        · rw [hothers g' hg] at hg'
          exact absurd (hforeign g' hg conn address hg') hconn
  · -- a connection of two tasks, one of them this one, would be foreign to it and its own
    have hnot : ∀ g', g' ≠ g → ∀ conn address address', l'.addressIn g' conn = some address →
        l'.addressIn g conn ≠ some address' := by
      intro g' hg conn address address' hget hmine
      rw [hothers g' hg] at hget
      rw [hown, (hconfined.foreign conn (hforeign g' hg conn address hget)).1] at hmine
      cases hmine
    intro g₁ g₂ conn address address' h₁ h₂
    by_cases hg₁ : g₁ = g <;> by_cases hg₂ : g₂ = g
    · exact hg₁.trans hg₂.symm
    · rw [hg₁] at h₁
      exact absurd h₁ (hnot g₂ hg₂ conn address' address h₂)
    · rw [hg₂] at h₂
      exact absurd h₂ (hnot g₁ hg₁ conn address address' h₁)
    · rw [hothers g₁ hg₁] at h₁
      rw [hothers g₂ hg₂] at h₂
      exact h.apart g₁ g₂ conn address address' h₁ h₂
  · intro g' conn address hget
    rw [hw.issued]
    by_cases hg : g' = g
    · rw [hg, hown] at hget
      exact hconfined.numbered conn address hget
    · rw [hothers g' hg] at hget
      exact Nat.le_trans (h.numbered g' conn address hget) hconfined.issued_le

/-- **A start** begins a generation with a task that has no connections. -/
theorem start (h : Divided l) (address : Address) : Divided (l.start (.ok address)).2 := by
  cases hrunning : l.running with
  | some r =>
    rw [start_of_some hrunning]
    exact h
  | none =>
    rw [start_of_none hrunning]
    -- the new number has had no task so far
    have hfresh : l.tables (l.generations + 1) = none := by
      refine Option.eq_none_iff_forall_ne_some.mpr fun tables ht => ?_
      have hle := h.begun (l.generations + 1) (by rw [ht]; rfl)
      omega
    generalize hstarted : ({ l with
      running := some ⟨l.generations + 1, address⟩
      generations := l.generations + 1
      tasks := l.tasks.insert (l.generations + 1) ⟨.empty, []⟩ } : Listener κ σ) = l'
    have htables : ∀ g, l'.tables g = if g = l.generations + 1 then some .empty else l.tables g := by
      intro g
      rw [← hstarted, tables, Table.get?_insert_ite]
      split
      · rfl
      · rfl
    refine h.of_address (by rw [← hstarted]) ?_ ?_ ?_ ?_
    · intro g conn
      by_cases hnew : g = l.generations + 1
      · rw [addressIn, addressIn, htables, if_pos hnew, hnew, hfresh]
        rfl
      · exact addressIn_congr ((htables g).trans (if_neg hnew)) conn
    · intro r hr
      rw [← hstarted] at hr ⊢
      cases hr
      rfl
    · intro r hr
      rw [← hstarted] at hr
      cases hr
      rw [htables, if_pos rfl]
      rfl
    · intro g hg
      rw [← hstarted]
      show g ≤ l.generations + 1
      by_cases hnew : g = l.generations + 1
      · exact Nat.le_of_eq hnew
      · rw [htables, if_neg hnew] at hg
        exact Nat.le_succ_of_le (h.begun g hg)

theorem shutdown (h : Divided l) : Divided l.shutdown :=
  { h with
    latest := fun r hr => by cases hr
    manned := fun r hr => by cases hr }

theorem drop (h : Divided l) (s : Service κ σ) (g : Nat) (conn : ConnId) :
    Divided (l.drop s g conn) := by
  cases ht : l.tasks.get? g with
  | none =>
    rw [Listener.drop]
    rw [ht]
    exact h
  | some t =>
    have htables := tables_of_some ht
    rw [drop_of_some ht]
    exact h.worked htables ((h.confined htables).close s conn)
      (worked_insert l g t (Poller.close s ⟨t.tables, l.shared⟩ conn) _ rfl rfl)

theorem onTask (h : Divided l) (g : Nat) {f : Poller κ σ → Poller κ σ}
    (hf : ∀ {p q : Poller κ σ}, Poller.Confined p q → Poller.Confined p (f q)) :
    Divided (l.onTask g f) := by
  cases ht : l.tasks.get? g with
  | none =>
    rw [Listener.onTask]
    rw [ht]
    exact h
  | some t =>
    have htables := tables_of_some ht
    exact h.worked htables (hf (h.confined htables)) (worked_onTask ht f)

theorem serve (h : Divided l) (s : Service κ σ) (g : Nat) : Divided (l.serve s g) := by
  rw [Listener.serve]
  cases ht : l.tasks.get? g with
  | none => exact h
  | some t =>
    obtain ⟨tables, queue⟩ := t
    cases queue with
    | nil => exact h
    | cons c queue =>
      -- to take an order off the queue changes no connection
      have halike : Alike l { l with tasks := l.tasks.insert g ⟨tables, queue⟩ } := by
        refine ⟨rfl, rfl, rfl, fun g' => ?_⟩
        show ((l.tasks.insert g _).get? g').map PollTask.tables = l.tables g'
        rw [Table.get?_insert_ite]
        split
        · rename_i hg
          rw [hg, tables_of_some ht]
          rfl
        · rfl
      exact (h.alike halike).onTask g fun hc => hc.command s c

/-- **The end of a task** that has no connections leaves the others with theirs. -/
theorem leave (h : Divided l) (g : Nat) : Divided (l.leave g) := by
  cases ht : l.tasks.get? g with
  | none =>
    rw [Listener.leave]
    rw [ht]
    exact h
  | some t =>
    rw [leave_of_some ht]
    split
    · rename_i hkeys
      -- the task goes, and with it the running entry if that is its own
      generalize hended : ({ l with
        running := if l.takesOrders g then none else l.running
        tasks := l.tasks.erase g } : Listener κ σ) = l'
      have htables : ∀ g', l'.tables g' = if g' = g then none else l.tables g' := by
        intro g'
        rw [← hended, tables, Table.get?_erase_ite]
        split
        · rfl
        · rfl
      have hrunning : ∀ r, l'.running = some r → l.running = some r ∧ r.generation ≠ g := by
        intro r hr
        rw [← hended] at hr
        change (if l.takesOrders g then none else l.running) = some r at hr
        split at hr
        · cases hr
        · rename_i htakes
          refine ⟨hr, fun hg => htakes ?_⟩
          rw [takesOrders]
          simp only [hr, hg, decide_true]
      refine h.of_address (by rw [← hended]) ?_ ?_ ?_ ?_
      · intro g' conn
        by_cases hg : g' = g
        · -- the task that is over had no connections left
          have hnone : l.addressIn g conn = none := by
            rw [addressIn_of_tables (tables_of_some ht)]
            refine Option.eq_none_iff_forall_ne_some.mpr fun address hget => ?_
            have hmem := Table.mem_keys_iff.mpr ⟨address, hget⟩
            rw [hkeys] at hmem
            exact List.not_mem_nil hmem
          rw [hg, hnone, addressIn, htables, if_pos rfl]
          rfl
        · exact addressIn_congr ((htables g').trans (if_neg hg)) conn
      · intro r hr
        rw [← hended]
        exact h.latest r (hrunning r hr).1
      · intro r hr
        obtain ⟨hold, hg⟩ := hrunning r hr
        rw [htables, if_neg hg]
        exact h.manned r hold
      · intro g' hg'
        rw [← hended]
        refine h.begun g' ?_
        rw [htables] at hg'
        split at hg'
        · cases hg'
        · exact hg'
    · exact h

theorem finish (h : Divided l) (s : Service κ σ) (order : List ConnId) (g : Nat) :
    Divided (l.finish s order g) := by
  cases ht : l.tasks.get? g with
  | none =>
    rw [Listener.finish]
    rw [ht]
    exact h
  | some t =>
    rw [finish_eq_leave s order ht]
    refine Divided.leave ?_ g
    exact List.foldlRecOn _ _ h fun _ hl conn _ => hl.drop s g conn

end Divided

end Listener

end FrameSync.Net.Battle
