import FrameSync.Net.Battle.Exchange
import FrameSync.Proofs.Net.Notices
import Mathlib.Data.List.Induction

/-!
# The sessions of a poll task

A poll task finds a session by its address and an address by its connection, and it keeps a copy of
the second table for those who send. `Consistent` says that the three agree, and that what the
handler has been told of a connection is the course of one that is open exactly if the tables have
it. The tables change in few ways only: a session is opened, closed, or put back with another state
of its reliable layer; each of these keeps the agreement, so every move of the task does, whatever
the reliable layer and the handler answer.

Besides, a datagram touches the session of its address alone (`Received`), and the end of a task
takes all its connections with it. `sessions_agree` is all of this together.
-/

set_option autoImplicit false

namespace FrameSync.Net.Battle.Poller

open Wire

variable {κ σ : Type} {s : Service κ σ} {shared : Shared σ} {p p' : Poller κ σ} {conn c : ConnId}
  {address a : Address}

/-! ## What has been told -/

/-- What has been told since a task began, by the numbers issued so far and the connections that are
open: the course of each connection that was given a number, and nothing about others. The handler
knows the canonical address of a connection that is open. -/
def Told (shared : Shared σ) (issued : Nat) (byConn : Table ConnId Address) (log : List Notice) :
    Prop :=
  ∃ told, log = shared.log ++ told ∧ ∀ conn : ConnId,
    (shared.issued < conn.num ∧ conn.num ≤ issued →
      ∃ home packets, eventsOf conn told = course conn home packets (byConn.get? conn).isSome ∧
        ∀ address, byConn.get? conn = some address → home = address.canonical) ∧
    (¬(shared.issued < conn.num ∧ conn.num ≤ issued) → eventsOf conn told = [])

section Told

variable {issued : Nat} {byConn : Table ConnId Address} {log : List Notice}

theorem Told.failed (h : Told shared issued byConn log) (conn : ConnId) (e : TransportError) :
    Told shared issued byConn (log ++ [.failed conn e]) := by
  obtain ⟨told, rfl, hevents⟩ := h
  refine ⟨told ++ [.failed conn e], List.append_assoc .., fun c => ?_⟩
  rw [eventsOf_append, eventsOf_failed, List.append_nil]
  exact hevents c

/-- Of the other connections the same is told as before. -/
theorem eventsOf_snoc_of_ne {told : List Notice} {n : Notice} (hne : c ≠ n.conn) :
    eventsOf c (told ++ [n]) = eventsOf c told :=
  eventsOf_append_other fun n' hn => by
    rw [List.mem_singleton.mp hn]
    exact Ne.symm hne

theorem Told.packet (h : Told shared issued byConn log)
    (hnum : shared.issued < conn.num ∧ conn.num ≤ issued)
    (hopen : (byConn.get? conn).isSome = true) (packet : Packet) :
    Told shared issued byConn (log ++ [.packet conn packet]) := by
  obtain ⟨told, rfl, hevents⟩ := h
  refine ⟨told ++ [.packet conn packet], List.append_assoc .., fun c => ?_⟩
  by_cases hc : c = conn
  · subst hc
    obtain ⟨home, packets, hcourse, hhome⟩ := (hevents c).1 hnum
    refine ⟨fun _ => ⟨home, packets ++ [packet], ?_, hhome⟩, fun hnot => absurd hnum hnot⟩
    rw [eventsOf_append, hcourse, hopen, eventsOf_packet, course_packet]
  · rw [eventsOf_snoc_of_ne hc]
    exact hevents c

theorem Told.disconnected (h : Told shared issued byConn log)
    (hnum : shared.issued < conn.num ∧ conn.num ≤ issued)
    (hopen : (byConn.get? conn).isSome = true) :
    Told shared issued (byConn.erase conn) (log ++ [.disconnected conn]) := by
  obtain ⟨told, rfl, hevents⟩ := h
  refine ⟨told ++ [.disconnected conn], List.append_assoc .., fun c => ?_⟩
  by_cases hc : c = conn
  · subst hc
    obtain ⟨home, packets, hcourse, -⟩ := (hevents c).1 hnum
    rw [Table.get?_erase_self]
    refine ⟨fun _ => ⟨home, packets, ?_, fun _ hget => by cases hget⟩, fun hnot => absurd hnum hnot⟩
    rw [eventsOf_append, hcourse, hopen, eventsOf_disconnected, course_closed]
    rfl
  · rw [eventsOf_snoc_of_ne hc, Table.get?_erase_of_ne _ (Ne.symm hc)]
    exact hevents c

theorem Told.connected (h : Told shared issued byConn log) (hle : shared.issued ≤ issued)
    (address : Address) :
    Told shared (issued + 1) (byConn.insert ⟨issued + 1⟩ address)
      (log ++ [.connected ⟨issued + 1⟩ address.canonical]) := by
  obtain ⟨told, rfl, hevents⟩ := h
  refine ⟨told ++ [.connected ⟨issued + 1⟩ address.canonical], List.append_assoc .., fun c => ?_⟩
  by_cases hc : c = ⟨issued + 1⟩
  · -- nothing has been told of a number that had not been issued
    subst hc
    have hnone := (hevents ⟨issued + 1⟩).2 fun hnum => Nat.not_succ_le_self _ hnum.2
    rw [Table.get?_insert_self]
    refine ⟨fun _ => ⟨address.canonical, [], ?_, fun _ hget => ?_⟩,
      fun hnot => absurd ⟨Nat.lt_succ_of_le hle, Nat.le_refl _⟩ hnot⟩
    · rw [eventsOf_append, hnone, eventsOf_connected]
      rfl
    · rw [Option.some.inj hget]
  · have hnum : c.num ≤ issued + 1 ↔ c.num ≤ issued := by
      have hne : c.num ≠ issued + 1 := fun heq => hc (congrArg ConnId.mk heq)
      omega
    rw [eventsOf_snoc_of_ne hc, Table.get?_insert_of_ne _ _ (Ne.symm hc), hnum]
    exact hevents c

end Told

/-! ## The tables -/

/-- The connection of an address. -/
def owner (p : Poller κ σ) (address : Address) : Option ConnId :=
  (p.sessions.get? address).map Session.conn

/-- How the tables of a task and what its handler has been told hang together; `shared` is what the
task found when it began. The address of a connection is the one whose session is that connection's.
Senders see the connections of the task beside those that were there before. Numbers are counted up,
and those of the task's connections are new; each of them has had its course. -/
structure Consistent (shared : Shared σ) (p : Poller κ σ) : Prop where
  inverse : ∀ conn address, p.byConn.get? conn = some address ↔ p.owner address = some conn
  peers : ∀ conn, p.peers.get? conn = (p.byConn.get? conn).or (shared.peers.get? conn)
  issued_le : shared.issued ≤ p.issued
  numbered : ∀ conn address, p.byConn.get? conn = some address →
    shared.issued < conn.num ∧ conn.num ≤ p.issued
  told : Told shared p.issued p.byConn p.log

/-- The connections that were there before have numbers that were issued. -/
def Numbered (shared : Shared σ) : Prop :=
  ∀ conn address, shared.peers.get? conn = some address → conn.num ≤ shared.issued

theorem consistent_new (shared : Shared σ) : Consistent shared (new shared : Poller κ σ) where
  inverse := fun _ _ => ⟨fun h => (by cases h), fun h => (by cases h)⟩
  peers := fun _ => rfl
  issued_le := Nat.le_refl _
  numbered := fun _ _ h => by cases h
  told := by
    refine ⟨[], (List.append_nil _).symm, fun conn => ⟨fun hnum => ?_, fun _ => rfl⟩⟩
    exact absurd hnum.1 (Nat.not_lt.mpr hnum.2)

namespace Consistent

/-- Sessions may be put back with another state of the reliable layer, and anything may be sent. -/
theorem of_same (h : Consistent shared p) (howner : ∀ a, p'.owner a = p.owner a)
    (hbyConn : p'.byConn = p.byConn) (hpeers : p'.peers = p.peers) (hissued : p'.issued = p.issued)
    (htold : Told shared p.issued p.byConn p'.log) : Consistent shared p' where
  inverse := fun conn address => by rw [hbyConn, howner]; exact h.inverse conn address
  peers := fun conn => by rw [hpeers, hbyConn]; exact h.peers conn
  issued_le := by rw [hissued]; exact h.issued_le
  numbered := fun conn address => by rw [hbyConn, hissued]; exact h.numbered conn address
  told := by rw [hissued, hbyConn]; exact htold

/-- **A connection is closed.** -/
theorem close (h : Consistent shared p) (hshared : Numbered shared) (conn : ConnId) :
    Consistent shared (p.close s conn) := by
  rw [Poller.close]
  cases hget : p.byConn.get? conn with
  | none => exact h
  | some address =>
    have hnum := h.numbered conn address hget
    have hbyConn : ∀ c, (p.byConn.erase conn).get? c = if c = conn then none else p.byConn.get? c :=
      Table.get?_erase_ite _ _
    refine ⟨fun c a => ?_, fun c => ?_, h.issued_le, fun c a hc => ?_,
      h.told.disconnected hnum (by rw [hget]; rfl)⟩
    · show (p.byConn.erase conn).get? c = some a ↔
        ((p.sessions.erase address).get? a).map Session.conn = some c
      rw [hbyConn, Table.get?_erase_ite]
      have hinverse := h.inverse c a
      by_cases hc : c = conn <;> by_cases ha : a = address
      · simp [hc, ha]
      · -- the connection has no other address,
        rw [if_pos hc, if_neg ha]
        refine iff_of_false (by simp) fun howner => ha ?_
        have hother := hinverse.mpr howner
        rw [hc, hget] at hother
        exact (Option.some.inj hother).symm
      · -- and the address no other connection
        rw [if_neg hc, if_pos ha]
        refine iff_of_false (fun hother => hc ?_) (by simp)
        have howner := hinverse.mp hother
        rw [ha, (h.inverse conn address).mp hget] at howner
        exact (Option.some.inj howner).symm
      · rw [if_neg hc, if_neg ha]
        exact hinverse
    · show (p.peers.erase conn).get? c = ((p.byConn.erase conn).get? c).or (shared.peers.get? c)
      rw [hbyConn, Table.get?_erase_ite, h.peers]
      by_cases hc : c = conn
      · -- the number is new, so nobody else's connection shows through
        subst hc
        rw [if_pos rfl, if_pos rfl, Option.none_or]
        cases hold : shared.peers.get? c with
        | none => rfl
        | some a => exact absurd (hshared c a hold) (Nat.not_le.mpr hnum.1)
      · rw [if_neg hc, if_neg hc]
    · change (p.byConn.erase conn).get? c = some a at hc
      rw [hbyConn] at hc
      split at hc
      · cases hc
      · exact h.numbered c a hc

/-- **A connection is opened** for an address that has none. -/
theorem openSession (h : Consistent shared p) (hnone : p.sessions.get? address = none) (now : Nat)
    (conv : UInt32) : Consistent shared (p.openSession s now address conv) := by
  -- the new number has no address yet, and the address no connection
  have hfresh : ∀ a, p.byConn.get? ⟨p.issued + 1⟩ ≠ some a := fun a hget =>
    Nat.not_succ_le_self _ (h.numbered _ a hget).2
  refine ⟨fun c a => ?_, fun c => ?_, Nat.le_succ_of_le h.issued_le, fun c a hc => ?_,
    h.told.connected h.issued_le address⟩
  · show (p.byConn.insert ⟨p.issued + 1⟩ address).get? c = some a ↔
      ((p.sessions.insert address _).get? a).map Session.conn = some c
    rw [Table.get?_insert_ite, Table.get?_insert_ite]
    have hinverse := h.inverse c a
    by_cases hc : c = ⟨p.issued + 1⟩ <;> by_cases ha : a = address
    · simp [hc, ha]
    · rw [if_pos hc, if_neg ha]
      refine iff_of_false (fun heq => ha (Option.some.inj heq).symm) fun howner => ?_
      exact hfresh a (hc ▸ hinverse.mpr howner)
    · rw [if_neg hc, if_pos ha]
      refine iff_of_false (fun hget => ?_) fun heq => hc (Option.some.inj heq).symm
      have howner := hinverse.mp hget
      rw [ha, owner, hnone] at howner
      cases howner
    · rw [if_neg hc, if_neg ha]
      exact hinverse
  · show (p.peers.insert ⟨p.issued + 1⟩ address).get? c =
      ((p.byConn.insert ⟨p.issued + 1⟩ address).get? c).or (shared.peers.get? c)
    rw [Table.get?_insert_ite, Table.get?_insert_ite, h.peers]
    split
    · rfl
    · rfl
  · change (p.byConn.insert ⟨p.issued + 1⟩ address).get? c = some a at hc
    rw [Table.get?_insert_ite] at hc
    split at hc
    · rename_i heq
      rw [heq]
      exact ⟨Nat.lt_succ_of_le h.issued_le, Nat.le_refl _⟩
    · exact ⟨(h.numbered c a hc).1, Nat.le_succ_of_le (h.numbered c a hc).2⟩

end Consistent

/-! ## Giving messages to the handler -/

/-- Among the messages of a connection there is one that cannot be taken out or is no packet, or one
that the handler refuses, having been given those before it. -/
inductive Faulty (h : Handler σ) (conn : ConnId) : σ → List (Except String Bytes) → Prop where
  | malformed {state : σ} {message : Except String Bytes} {rest : List (Except String Bytes)}
      (e : TransportError) (hunpack : unpack message = .error e) :
      Faulty h conn state (message :: rest)
  | refused {state : σ} {message : Except String Bytes} {rest : List (Except String Bytes)}
      (packet : Packet) (hunpack : unpack message = .ok packet)
      (hrefused : (h.packet state conn packet).accepted = false) :
      Faulty h conn state (message :: rest)
  | later {state : σ} {message : Except String Bytes} {rest : List (Except String Bytes)}
      (packet : Packet) (hunpack : unpack message = .ok packet)
      (haccepted : (h.packet state conn packet).accepted = true)
      (hrest : Faulty h conn (h.packet state conn packet).state rest) :
      Faulty h conn state (message :: rest)

/-- A notice about an open connection that stays open: a packet or a failure. -/
def IsPassing (conn : ConnId) (n : Notice) : Prop :=
  (∃ packet, n = .packet conn packet) ∨ ∃ e, n = .failed conn e

/-- The task after the handler has been given a packet. -/
def handed (s : Service κ σ) (p : Poller κ σ) (conn : ConnId) (packet : Packet) : Poller κ σ :=
  { p.tell (.packet conn packet) (s.handler.packet p.state conn packet).state with
    asked := p.asked ++ (s.handler.packet p.state conn packet).sent }

section Dispatch

variable {message : Except String Bytes} {messages rest : List (Except String Bytes)}

theorem dispatch_of_error {e : TransportError} (hunpack : unpack message = .error e) :
    dispatch s conn p (message :: rest) = (false, p.fail s conn e) := by
  rw [dispatch]
  rw [hunpack]

theorem dispatch_of_ok {packet : Packet} (hunpack : unpack message = .ok packet) :
    dispatch s conn p (message :: rest) =
      if (s.handler.packet p.state conn packet).accepted then
        dispatch s conn (p.handed s conn packet) rest
      else (false, p.handed s conn packet) := by
  rw [dispatch]
  rw [hunpack]
  rfl

/-- **The messages are all accepted unless one of them is faulty.** -/
theorem dispatch_fst_iff : (dispatch s conn p messages).1 = false ↔
    Faulty s.handler conn p.state messages := by
  -- on the messages, the state of the handler being whatever those before have made of it
  induction messages generalizing p with
  | nil => exact ⟨fun h => (by cases h), fun h => (by cases h)⟩
  | cons message rest ih =>
    cases hunpack : unpack message with
    | error e =>
      rw [dispatch_of_error hunpack]
      exact iff_of_true rfl (.malformed e hunpack)
    | ok packet =>
      rw [dispatch_of_ok hunpack]
      cases haccepted : (s.handler.packet p.state conn packet).accepted with
      | true =>
        rw [if_pos rfl, ih]
        refine ⟨.later packet hunpack haccepted, ?_⟩
        rintro (⟨e, herror⟩ | ⟨other, hother, hrefused⟩ | ⟨other, hother, -, hrest⟩)
        · rw [hunpack] at herror
          cases herror
        · cases hunpack.symm.trans hother
          rw [haccepted] at hrefused
          cases hrefused
        · cases hunpack.symm.trans hother
          exact hrest
      | false =>
        rw [if_neg (by simp)]
        exact iff_of_true rfl (.refused packet hunpack haccepted)

/-- **Giving messages leaves the tables alone**, and tells of packets and failures of their own
connection only. -/
theorem dispatch_spec (s : Service κ σ) (conn : ConnId) (p : Poller κ σ)
    (messages : List (Except String Bytes)) :
    (dispatch s conn p messages).2.sessions = p.sessions ∧
      (dispatch s conn p messages).2.byConn = p.byConn ∧
      (dispatch s conn p messages).2.peers = p.peers ∧
      (dispatch s conn p messages).2.issued = p.issued ∧
      ∃ ns, (dispatch s conn p messages).2.log = p.log ++ ns ∧ ∀ n ∈ ns, IsPassing conn n := by
  induction messages generalizing p with
  | nil => exact ⟨rfl, rfl, rfl, rfl, [], (List.append_nil _).symm, fun _ hn => by cases hn⟩
  | cons message rest ih =>
    cases hunpack : unpack message with
    | error e =>
      rw [dispatch_of_error hunpack]
      refine ⟨rfl, rfl, rfl, rfl, [.failed conn e], rfl, fun n hn => ?_⟩
      exact Or.inr ⟨_, List.mem_singleton.mp hn⟩
    | ok packet =>
      rw [dispatch_of_ok hunpack]
      have hpassing : IsPassing conn (.packet conn packet) := Or.inl ⟨packet, rfl⟩
      split
      · -- an accepted packet changes the handler and the log, and the others are given after it
        obtain ⟨hsessions, hbyConn, hpeers, hissued, ns, hlog, hns⟩ := ih (p.handed s conn packet)
        refine ⟨hsessions, hbyConn, hpeers, hissued, .packet conn packet :: ns, ?_, fun n hn => ?_⟩
        · rw [hlog]
          show (p.log ++ [.packet conn packet]) ++ ns = _
          rw [List.append_assoc]
          rfl
        · rcases List.mem_cons.mp hn with rfl | hn
          · exact hpassing
          · exact hns n hn
      · refine ⟨rfl, rfl, rfl, rfl, [.packet conn packet], rfl, fun n hn => ?_⟩
        rw [List.mem_singleton.mp hn]
        exact hpassing

/-- **If all messages are accepted**, the handler has been given the packet of each, in order. -/
theorem dispatch_accepted (haccepted : (dispatch s conn p messages).1 = true) :
    ∃ packets : List Packet, messages.map unpack = packets.map .ok ∧
      (dispatch s conn p messages).2.log = p.log ++ packets.map (.packet conn) := by
  induction messages generalizing p with
  | nil => exact ⟨[], rfl, (List.append_nil _).symm⟩
  | cons message rest ih =>
    cases hunpack : unpack message with
    | error e =>
      rw [dispatch_of_error hunpack] at haccepted
      cases haccepted
    | ok packet =>
      rw [dispatch_of_ok hunpack] at haccepted ⊢
      split at haccepted
      · rename_i hpacket
        obtain ⟨packets, hrest, hlog⟩ := ih haccepted
        refine ⟨packet :: packets, ?_, ?_⟩
        · rw [List.map_cons, List.map_cons, hunpack, hrest]
        · rw [if_pos hpacket, hlog]
          show (p.log ++ [.packet conn packet]) ++ packets.map (.packet conn) = _
          rw [List.append_assoc]
          rfl
      · cases haccepted

/-- Packets and failures belong to the course of a connection that is open. -/
theorem Told.passing {issued : Nat} {byConn : Table ConnId Address} {log ns : List Notice}
    (h : Told shared issued byConn log) (hnum : shared.issued < conn.num ∧ conn.num ≤ issued)
    (hopen : (byConn.get? conn).isSome = true) (hns : ∀ n ∈ ns, IsPassing conn n) :
    Told shared issued byConn (log ++ ns) := by
  induction ns generalizing log with
  | nil => rwa [List.append_nil]
  | cons n ns ih =>
    rw [List.append_cons]
    refine ih ?_ fun n' hn' => hns n' (List.mem_cons_of_mem n hn')
    rcases hns n List.mem_cons_self with ⟨packet, rfl⟩ | ⟨e, rfl⟩
    · exact h.packet hnum hopen packet
    · exact h.failed conn e

end Dispatch

/-! ## Moves -/

/-- A session put back under its address with the connection it had. -/
theorem owner_insert {session session' : Session κ} (hget : p.sessions.get? address = some session)
    (hconn : session'.conn = session.conn) (a : Address) :
    ((p.sessions.insert address session').get? a).map Session.conn = p.owner a := by
  rw [Table.get?_insert_ite, owner]
  split
  · rename_i ha
    rw [ha, hget, Option.map_some, Option.map_some, hconn]
  · rfl

/-- The connection of a session is in the index. -/
theorem Consistent.byConn_of_session (h : Consistent shared p) {session : Session κ}
    (hget : p.sessions.get? address = some session) : p.byConn.get? session.conn = some address :=
  (h.inverse session.conn address).mpr (by rw [owner, hget]; rfl)

theorem close_of_some (hget : p.byConn.get? conn = some address) :
    p.close s conn = { p.tell (.disconnected conn) (s.handler.disconnected p.state conn) with
      byConn := p.byConn.erase conn
      sessions := p.sessions.erase address
      peers := p.peers.erase conn } := by
  rw [close]
  rw [hget]

/-- What the handler is told first of a datagram: nothing if the session of its address is one of
the conversation; else the end of that session, if there is one, and the opening of another. -/
def opening (p : Poller κ σ) (address : Address) (conv : UInt32) : List Notice :=
  match p.sessions.get? address with
  | none => [.connected ⟨p.issued + 1⟩ address.canonical]
  | some session =>
    if session.conv = conv then []
    else [.disconnected session.conn, .connected ⟨p.issued + 1⟩ address.canonical]

/-- What making sure of a session comes to. There is a session of the conversation then; the old
one, if it was of another conversation, has been closed before the new one was opened; and the
sessions of other addresses are as they were. -/
structure Ensured (p : Poller κ σ) (address : Address) (conv : UInt32) (q : Poller κ σ)
    (session : Session κ) : Prop where
  found : q.sessions.get? address = some session
  named : session.conv = conv
  log : q.log = p.log ++ p.opening address conv
  replaced : ∀ old, p.sessions.get? address = some old → old.conv ≠ conv →
    q.byConn.get? old.conn = none
  others : ∀ other, other ≠ address → q.sessions.get? other = p.sessions.get? other

theorem ensured_openSession {q : Poller κ σ} {conv : UInt32} {now : Nat}
    (hlog : q.log ++ [.connected ⟨q.issued + 1⟩ address.canonical] = p.log ++ p.opening address conv)
    (hreplaced : ∀ old, p.sessions.get? address = some old →
      q.byConn.get? old.conn = none ∧ old.conn.num ≤ q.issued)
    (hothers : ∀ other, other ≠ address → q.sessions.get? other = p.sessions.get? other) :
    Ensured p address conv (q.openSession s now address conv)
      ⟨⟨q.issued + 1⟩, conv, s.engine.start (.ofSettings s.settings) conv, now⟩ where
  found := Table.get?_insert_self _ _ _
  named := rfl
  log := hlog
  replaced := fun old hold _ => by
    obtain ⟨hgone, hle⟩ := hreplaced old hold
    have hne : (⟨q.issued + 1⟩ : ConnId) ≠ old.conn := fun heq =>
      Nat.not_succ_le_self _ (congrArg ConnId.num heq ▸ hle)
    exact (Table.get?_insert_of_ne _ _ hne).trans hgone
  others := fun other hne =>
    (Table.get?_insert_of_ne _ _ (Ne.symm hne)).trans (hothers other hne)

/-- **Making sure of a session** keeps the tables in step. -/
theorem Consistent.ensureSession (h : Consistent shared p) (hshared : Numbered shared)
    (s : Service κ σ) (now : Nat) (address : Address) (conv : UInt32) :
    Consistent shared (p.ensureSession s now address conv) ∧
      ∃ session, Ensured p address conv (p.ensureSession s now address conv) session := by
  rw [Poller.ensureSession]
  cases hget : p.sessions.get? address with
  | none =>
    refine ⟨h.openSession hget now conv, _,
      ensured_openSession ?_ (fun old hold => ?_) fun _ _ => rfl⟩
    · rw [opening, hget]
    · rw [hget] at hold
      cases hold
  | some session =>
    by_cases hconv : session.conv = conv
    · simp only [if_pos hconv]
      refine ⟨h, session, hget, hconv, ?_, fun old hold hother => ?_, fun _ _ => rfl⟩
      · rw [opening, hget]
        simp only [if_pos hconv, List.append_nil]
      · cases hget.symm.trans hold
        exact absurd hconv hother
    · -- the old session is closed first, so the address has none when the new one is opened
      simp only [if_neg hconv]
      have hbyConn := h.byConn_of_session hget
      have hclose := close_of_some (s := s) hbyConn
      have hnone : (p.close s session.conn).sessions.get? address = none := by
        rw [hclose]
        exact Table.get?_erase_self _ _
      refine ⟨(h.close hshared session.conn).openSession hnone now conv, _,
        ensured_openSession ?_ (fun old hold => ?_) fun other hne => ?_⟩
      · rw [opening, hget, hclose]
        simp only [if_neg hconv]
        show (p.log ++ [.disconnected session.conn]) ++
          [.connected ⟨p.issued + 1⟩ address.canonical] = _
        rw [List.append_assoc]
        rfl
      · cases hget.symm.trans hold
        rw [hclose]
        exact ⟨Table.get?_erase_self _ _, (h.numbered session.conn address hbyConn).2⟩
      · rw [hclose]
        exact Table.get?_erase_of_ne _ (Ne.symm hne)

/-- The reliable layer refuses a datagram, or one of the messages that it completes is faulty. -/
inductive Rejected (s : Service κ σ) (state : σ) (session : Session κ) (data : Bytes) : Prop where
  | segment (reason : String) (hinput : s.engine.input session.engine data = .error reason)
  | message (messages : List (Except String Bytes)) (engine : κ)
      (hinput : s.engine.input session.engine data = .ok (messages, engine))
      (hfaulty : Faulty s.handler session.conn state messages)

/-- What a datagram that names a conversation comes to: `q` is the task once it has made sure of a
session, and `p'` the task afterwards. The sessions of other addresses are as they were, and so are
the connections other than the one that it arrived on. A rejected datagram closes that one. With any
other it stays open, and the handler has been given every message that was completed. -/
structure Received (s : Service κ σ) (p : Poller κ σ) (address : Address) (data : Bytes)
    (q : Poller κ σ) (session : Session κ) (p' : Poller κ σ) : Prop where
  ensured : Ensured p address (s.engine.conversation data) q session
  others : ∀ other, other ≠ address → p'.sessions.get? other = p.sessions.get? other
  kept : ∀ c, c ≠ session.conn → p'.byConn.get? c = q.byConn.get? c
  rejected : Rejected s q.state session data →
    p'.sessions.get? address = none ∧ p'.byConn.get? session.conn = none ∧
      ∃ ns, p'.log = q.log ++ ns ++ [.disconnected session.conn] ∧ ∀ n ∈ ns, IsPassing session.conn n
  accepted : ¬Rejected s q.state session data →
    p'.owner address = some session.conn ∧
      ∃ (messages : List (Except String Bytes)) (engine : κ) (packets : List Packet),
        s.engine.input session.engine data = .ok (messages, engine) ∧
        messages.map unpack = packets.map .ok ∧
        p'.log = q.log ++ packets.map (.packet session.conn)

section Datagram

variable {q : Poller κ σ} {session : Session κ} {data : Bytes} {now : Nat}

/-- The task with a session put back as a datagram leaves it. -/
def heard (q : Poller κ σ) (address : Address) (session : Session κ) (engine : κ) (now : Nat) :
    Poller κ σ :=
  { q with sessions := q.sessions.insert address { session with engine, lastSeen := now } }

/-- A datagram that the reliable layer refuses. -/
theorem datagram_of_error (hdata : leastDatagram ≤ data.length)
    (hq : p.ensureSession s now address (s.engine.conversation data) = q)
    (hfound : q.sessions.get? address = some session) {reason : String}
    (hinput : s.engine.input session.engine data = .error reason) :
    p.datagram s now address data =
      (q.fail s session.conn (.kcp reason)).close s session.conn := by
  rw [datagram, if_neg (Nat.not_lt.mpr hdata)]
  simp only [hq, hfound, hinput]

/-- A datagram that completes some messages. -/
theorem datagram_of_ok (hdata : leastDatagram ≤ data.length)
    (hq : p.ensureSession s now address (s.engine.conversation data) = q)
    (hfound : q.sessions.get? address = some session) {messages : List (Except String Bytes)}
    {engine : κ} (hinput : s.engine.input session.engine data = .ok (messages, engine)) :
    let given := (q.heard address session engine now).dispatch s session.conn messages
    p.datagram s now address data =
      if given.1 then given.2 else given.2.close s session.conn := by
  rw [datagram, if_neg (Nat.not_lt.mpr hdata)]
  simp only [hq, hfound, hinput]
  rfl

/-- What a datagram leaves as it was before a connection is closed for it: every session but its
own, the index, and what has been told of other connections. -/
structure Passed (q : Poller κ σ) (address : Address) (conn : ConnId) (r : Poller κ σ) : Prop where
  others : ∀ other, other ≠ address → r.sessions.get? other = q.sessions.get? other
  byConn : r.byConn = q.byConn
  told : ∃ ns, r.log = q.log ++ ns ∧ ∀ n ∈ ns, IsPassing conn n

theorem passed_fail (s : Service κ σ) (q : Poller κ σ) (address : Address) (conn : ConnId)
    (e : TransportError) : Passed q address conn (q.fail s conn e) :=
  ⟨fun _ _ => rfl, rfl, [.failed conn e], rfl, fun _ hn => Or.inr ⟨e, List.mem_singleton.mp hn⟩⟩

/-- **The messages of a datagram** keep the tables in step, whatever the handler makes of them. -/
theorem Consistent.dispatched (h : Consistent shared q)
    (hfound : q.sessions.get? address = some session) (engine : κ) (now : Nat)
    (messages : List (Except String Bytes)) :
    let r := ((q.heard address session engine now).dispatch s session.conn messages).2
    Consistent shared r ∧ Passed q address session.conn r ∧ r.owner address = some session.conn := by
  intro r
  have hheard : Consistent shared (q.heard address session engine now) :=
    h.of_same (owner_insert hfound rfl) rfl rfl rfl h.told
  have hget := h.byConn_of_session hfound
  obtain ⟨hsessions, hbyConn, hpeers, hissued, ns, hlog, hns⟩ :=
    dispatch_spec s session.conn (q.heard address session engine now) messages
  refine ⟨?_, ⟨fun other hne => ?_, hbyConn, ns, hlog, hns⟩, ?_⟩
  · refine hheard.of_same (fun a => by rw [owner, owner, hsessions]) hbyConn hpeers hissued ?_
    rw [hlog]
    exact h.told.passing (h.numbered session.conn address hget) (by rw [hget]; rfl) hns
  · rw [hsessions]
    exact Table.get?_insert_of_ne _ _ (Ne.symm hne)
  · rw [owner, hsessions]
    exact congrArg (Option.map Session.conn) (Table.get?_insert_self _ _ _)

section Received

variable {r : Poller κ σ} (hensured : Ensured p address (s.engine.conversation data) q session)
  (hpassed : Passed q address session.conn r)

include hensured hpassed

/-- A rejected datagram: its connection is closed. -/
theorem received_closed (hget : q.byConn.get? session.conn = some address)
    (hrejected : Rejected s q.state session data) :
    Received s p address data q session (r.close s session.conn) := by
  obtain ⟨ns, hlog, hns⟩ := hpassed.told
  rw [close_of_some (hpassed.byConn ▸ hget)]
  refine ⟨hensured, fun other hne => ?_, fun c hc => ?_, fun _ => ?_,
    fun hnot => absurd hrejected hnot⟩
  · exact (Table.get?_erase_of_ne _ (Ne.symm hne)).trans
      ((hpassed.others other hne).trans (hensured.others other hne))
  · rw [← hpassed.byConn]
    exact Table.get?_erase_of_ne _ (Ne.symm hc)
  · refine ⟨Table.get?_erase_self _ _, Table.get?_erase_self _ _, ns, ?_, hns⟩
    rw [← hlog]
    rfl

/-- Any other datagram: its connection stays. -/
theorem received_open (howner : r.owner address = some session.conn)
    (haccepted : ¬Rejected s q.state session data) {messages : List (Except String Bytes)}
    {engine : κ} (hinput : s.engine.input session.engine data = .ok (messages, engine))
    (hgiven : ∃ packets : List Packet, messages.map unpack = packets.map .ok ∧
      r.log = q.log ++ packets.map (.packet session.conn)) :
    Received s p address data q session r where
  ensured := hensured
  others := fun other hne => (hpassed.others other hne).trans (hensured.others other hne)
  kept := fun c _ => by rw [hpassed.byConn]
  rejected := fun hrejected => absurd hrejected haccepted
  accepted := fun _ => ⟨howner, messages, engine, hgiven.imp fun _ h => ⟨hinput, h⟩⟩

end Received

/-- **A datagram** keeps the tables in step, and touches the session of its address alone. -/
theorem Consistent.datagram (h : Consistent shared p) (hshared : Numbered shared) (s : Service κ σ)
    (now : Nat) (address : Address) (hdata : leastDatagram ≤ data.length) :
    Consistent shared (p.datagram s now address data) ∧
      ∃ session, Received s p address data
        (p.ensureSession s now address (s.engine.conversation data)) session
        (p.datagram s now address data) := by
  obtain ⟨hq, session, hensured⟩ :=
    h.ensureSession hshared s now address (s.engine.conversation data)
  generalize hqdef : p.ensureSession s now address (s.engine.conversation data) = q at hq hensured
  have hget := hq.byConn_of_session hensured.found
  cases hinput : s.engine.input session.engine data with
  | error reason =>
    rw [datagram_of_error hdata hqdef hensured.found hinput]
    have htold : Consistent shared (q.fail s session.conn (.kcp reason)) :=
      hq.of_same (fun _ => rfl) rfl rfl rfl (hq.told.failed _ _)
    exact ⟨htold.close hshared session.conn, session,
      received_closed hensured (passed_fail s q address _ _) hget (.segment reason hinput)⟩
  | ok completed =>
    obtain ⟨messages, engine⟩ := completed
    rw [datagram_of_ok hdata hqdef hensured.found hinput]
    obtain ⟨hgiven, hpassed, howner⟩ :=
      hq.dispatched (s := s) hensured.found engine now messages
    -- what is known of the messages is kept, so that nothing more has to be known of the giving
    have hfst : ((q.heard address session engine now).dispatch s session.conn messages).1 = false ↔
        Faulty s.handler session.conn q.state messages := dispatch_fst_iff
    have hall : ((q.heard address session engine now).dispatch s session.conn messages).1 = true →
        ∃ packets : List Packet, messages.map unpack = packets.map .ok ∧
          ((q.heard address session engine now).dispatch s session.conn messages).2.log =
            q.log ++ packets.map (.packet session.conn) := dispatch_accepted
    generalize (q.heard address session engine now).dispatch s session.conn messages = given at *
    cases haccepted : given.1 with
    | false =>
      rw [if_neg (by simp)]
      exact ⟨hgiven.close hshared session.conn, session, received_closed hensured hpassed hget
        (.message messages engine hinput (hfst.mp haccepted))⟩
    | true =>
      rw [if_pos rfl]
      refine ⟨hgiven, session, received_open hensured hpassed howner ?_ hinput (hall haccepted)⟩
      rintro (⟨reason, hrefused⟩ | ⟨messages', engine', hcompleted, hfaulty⟩)
      · cases hinput.symm.trans hrefused
      · cases hinput.symm.trans hcompleted
        cases haccepted.symm.trans (hfst.mpr hfaulty)

end Datagram

/-- Fewer bytes than a segment's header are ignored. -/
theorem datagram_of_short {data : Bytes} (hdata : data.length < leastDatagram) (now : Nat) :
    p.datagram s now address data = p := by
  rw [datagram, if_pos hdata]

namespace Consistent

/-- **An order** keeps the tables in step. -/
theorem command (h : Consistent shared p) (hshared : Numbered shared) (s : Service κ σ)
    (c : Command) : Consistent shared (p.command s c) := by
  cases c with
  | disconnect conn => exact h.close hshared conn
  | send d =>
    rw [Poller.command]
    cases hget : p.byConn.get? d.conn with
    | none => exact h
    | some address =>
      cases hsession : p.sessions.get? address with
      | none =>
        simp only [hsession]
        exact h
      | some session =>
        simp only [hsession]
        exact h.of_same (owner_insert hsession rfl) rfl rfl rfl h.told

/-- Looking after a session keeps the tables in step. -/
theorem tend (h : Consistent shared p) (hshared : Numbered shared) (s : Service κ σ) (now : Nat)
    (conn : ConnId) : Consistent shared (p.tend s now conn) := by
  rw [Poller.tend]
  cases hget : p.byConn.get? conn with
  | none => exact h
  | some address =>
    cases hsession : p.sessions.get? address with
    | none =>
      simp only [hsession]
      exact h
    | some session =>
      simp only [hsession]
      split
      · exact h.close hshared conn
      · cases s.engine.update session.engine (now / Tick.millisecond) with
        | none => exact h.close hshared conn
        | some due => exact h.of_same (owner_insert hsession rfl) rfl rfl rfl h.told

/-- **Every move** keeps the tables in step. -/
theorem apply (h : Consistent shared p) (hshared : Numbered shared) (s : Service κ σ) (m : Move) :
    Consistent shared (apply s p m) := by
  cases m with
  | datagram now address data =>
    by_cases hdata : data.length < leastDatagram
    · change Consistent shared (p.datagram s now address data)
      rw [datagram_of_short hdata now]
      exact h
    · exact (h.datagram hshared s now address (Nat.not_lt.mp hdata)).1
  | command c => exact h.command hshared s c
  | update now order => exact List.foldlRecOn _ _ h fun _ hq conn _ => hq.tend hshared s now conn

/-- Closing open connections one after the other: each is told of once. -/
theorem closeAll (h : Consistent shared p) (hshared : Numbered shared) (s : Service κ σ)
    {conns : List ConnId} (hnodup : conns.Nodup)
    (hopen : ∀ c ∈ conns, (p.byConn.get? c).isSome = true) :
    Consistent shared (conns.foldl (Poller.close s) p) ∧
      (conns.foldl (Poller.close s) p).log = p.log ++ conns.map .disconnected ∧
      ∀ c, (conns.foldl (Poller.close s) p).byConn.get? c =
        if c ∈ conns then none else p.byConn.get? c := by
  induction conns generalizing p with
  | nil => exact ⟨h, (List.append_nil _).symm, fun c => (if_neg List.not_mem_nil).symm⟩
  | cons conn conns ih =>
    obtain ⟨hfresh, hnodup⟩ := List.nodup_cons.mp hnodup
    obtain ⟨address, hget⟩ := Option.isSome_iff_exists.mp (hopen conn List.mem_cons_self)
    have hclose := close_of_some (s := s) hget
    have hindex : ∀ c, (p.close s conn).byConn.get? c = if c = conn then none else p.byConn.get? c :=
      fun c => by rw [hclose]; exact Table.get?_erase_ite _ _ _
    have hstill : ∀ c ∈ conns, ((p.close s conn).byConn.get? c).isSome = true := by
      intro c hc
      have hne : c ≠ conn := fun heq => hfresh (heq ▸ hc)
      rw [hindex, if_neg hne]
      exact hopen c (List.mem_cons_of_mem conn hc)
    -- the connections that are left are still open, since none is listed twice
    obtain ⟨hconsistent, hlog, hall⟩ := ih (h.close hshared conn) hnodup hstill
    refine ⟨hconsistent, ?_, fun c => ?_⟩
    · rw [List.foldl_cons, hlog, hclose]
      show (p.log ++ [.disconnected conn]) ++ conns.map .disconnected = _
      rw [List.append_assoc]
      rfl
    · rw [List.foldl_cons, hall, hindex]
      by_cases hc : c = conn <;> simp [hc]

end Consistent

/-- **In every history** the tables are in step. -/
theorem consistent_run (hshared : Numbered shared) (s : Service κ σ) (ms : List Move) :
    Consistent shared (run s (new shared) ms) :=
  List.foldlRecOn ms _ (consistent_new shared) fun _ hp m _ => hp.apply hshared s m

/-- What the end of a task comes to that closes its connections in the order in which `closed` has
them. It has no session and no connection, and leaves none to the senders. The end of each
connection that was open is told, and told once, so that each has had its course. -/
structure Ended (shared : Shared σ) (p : Poller κ σ) (closed : List ConnId) (p' : Poller κ σ) :
    Prop where
  sessions : p'.sessions = Table.empty
  byConn : p'.byConn = Table.empty
  peers : p'.peers = shared.peers
  log : p'.log = p.log ++ closed.map .disconnected
  all : closed.Perm p.byConn.keys
  once : closed.Nodup
  told : Told shared p'.issued p'.byConn p'.log

/-- **The end of a task** takes all its connections with it. -/
theorem Consistent.teardown (h : Consistent shared p) (hshared : Numbered shared) (s : Service κ σ)
    (order : List ConnId) : Ended shared p (p.byConn.keysBy order) (p.teardown s order) := by
  have hperm := p.byConn.perm_keysBy order
  have hnodup : (p.byConn.keysBy order).Nodup := hperm.nodup_iff.mpr p.byConn.keys_nodup
  have hopen : ∀ c ∈ p.byConn.keysBy order, (p.byConn.get? c).isSome = true := fun c hc =>
    Option.isSome_iff_exists.mpr (Table.mem_keysBy_iff.mp hc)
  obtain ⟨hconsistent, hlog, hall⟩ := h.closeAll hshared s hnodup hopen
  change Consistent shared (p.teardown s order) at hconsistent
  have hnone : ∀ c, (p.teardown s order).byConn.get? c = none := by
    intro c
    refine (hall c).trans ?_
    split
    · rfl
    · rename_i hc
      exact Option.eq_none_iff_forall_ne_some.mpr fun a ha => hc (Table.mem_keysBy_iff.mpr ⟨a, ha⟩)
  refine ⟨Table.ext_get? fun a => ?_, Table.ext_get? hnone, Table.ext_get? fun c => ?_, hlog, hperm,
    hnodup, hconsistent.told⟩
  · -- a session would have its connection in the index
    refine Option.eq_none_iff_forall_ne_some.mpr fun session hget => ?_
    have hlisted := hconsistent.byConn_of_session hget
    rw [hnone] at hlisted
    cases hlisted
  · rw [hconsistent.peers, hnone, Option.none_or]

/-- A rejected or accepted datagram only adds to what has been told. -/
theorem Received.log {q : Poller κ σ} {session : Session κ} {data : Bytes}
    (h : Received s p address data q session p') : ∃ rest, p'.log = q.log ++ rest := by
  by_cases hrejected : Rejected s q.state session data
  · obtain ⟨-, -, ns, hlog, -⟩ := h.rejected hrejected
    exact ⟨ns ++ [.disconnected session.conn], by rw [hlog, List.append_assoc]⟩
  · obtain ⟨-, -, -, packets, -, -, hlog⟩ := h.accepted hrejected
    exact ⟨packets.map (.packet session.conn), hlog⟩

/-- **A known address that names another conversation** has its old connection closed before the new
one is opened. -/
theorem Consistent.replaced (h : Consistent shared p) (hshared : Numbered shared) (s : Service κ σ)
    (now : Nat) {data : Bytes} (hdata : leastDatagram ≤ data.length) {old : Session κ}
    (hold : p.sessions.get? address = some old) (hconv : old.conv ≠ s.engine.conversation data) :
    (p.datagram s now address data).byConn.get? old.conn = none ∧
      ∃ rest, (p.datagram s now address data).log =
        p.log ++ .disconnected old.conn :: .connected ⟨p.issued + 1⟩ address.canonical :: rest := by
  have hq := (h.ensureSession hshared s now address (s.engine.conversation data)).1
  obtain ⟨-, session, hreceived⟩ := h.datagram hshared s now address hdata
  have hgone := hreceived.ensured.replaced old hold hconv
  -- the new connection is in the index and the old one is not
  have hne : old.conn ≠ session.conn := by
    intro heq
    rw [heq, hq.byConn_of_session hreceived.ensured.found] at hgone
    cases hgone
  obtain ⟨rest, hlog⟩ := hreceived.log
  refine ⟨(hreceived.kept old.conn hne).trans hgone, rest, ?_⟩
  rw [hlog, hreceived.ensured.log, opening, hold]
  simp only [if_neg hconv, List.append_assoc]
  rfl

/-- What is true of a task at every moment. The tables are in step, and each connection has had its
course so far; no two addresses have the same connection; senders see the connections of the task
and no others, if there were none before. Too short a datagram changes nothing. Any other concerns
its address alone: if it is rejected, the connection that it arrived on is closed and no other, and
an address that names another conversation loses its old connection before it has a new one. And the
task may end now, in whatever order it closes its connections. -/
structure Sound (s : Service κ σ) (shared : Shared σ) (p : Poller κ σ) : Prop where
  consistent : Consistent shared p
  apart : ∀ a b conn, p.owner a = some conn → p.owner b = some conn → a = b
  alone : shared.peers = Table.empty → p.peers = p.byConn
  ignored : ∀ now address data, data.length < leastDatagram → p.datagram s now address data = p
  received : ∀ now address data, leastDatagram ≤ data.length → ∃ session,
    Received s p address data (p.ensureSession s now address (s.engine.conversation data)) session
      (p.datagram s now address data)
  replaced : ∀ now address data old, leastDatagram ≤ data.length →
    p.sessions.get? address = some old → old.conv ≠ s.engine.conversation data →
    (p.datagram s now address data).byConn.get? old.conn = none ∧
      ∃ rest, (p.datagram s now address data).log =
        p.log ++ .disconnected old.conn :: .connected ⟨p.issued + 1⟩ address.canonical :: rest
  ended : ∀ order, Ended shared p (p.byConn.keysBy order) (p.teardown s order)

/-- **The sessions of a poll task.** Whatever comes in and is ordered, and whatever the reliable
layer and the handler make of it: the tables agree after each move, each connection is told of in
order, and the end of the task leaves none behind. -/
theorem sessions_agree (hshared : Numbered shared) (s : Service κ σ) (ms : List Move) :
    Sound s shared (run s (new shared) ms) where
  consistent := consistent_run hshared s ms
  apart := fun a b conn ha hb => by
    have hinverse := (consistent_run hshared s ms).inverse conn
    have ha := (hinverse a).mpr ha
    rw [(hinverse b).mpr hb] at ha
    exact (Option.some.inj ha).symm
  alone := fun halone => Table.ext_get? fun conn => by
    rw [(consistent_run hshared s ms).peers, halone, Table.get?_empty, Option.or_none]
  ignored := fun now _ _ hdata => datagram_of_short hdata now
  received := fun now address _ hdata =>
    ((consistent_run hshared s ms).datagram hshared s now address hdata).2
  replaced := fun now _ _ _ hdata hold hconv =>
    (consistent_run hshared s ms).replaced hshared s now hdata hold hconv
  ended := fun order => (consistent_run hshared s ms).teardown hshared s order

/-- A client begins a conversation with a message. -/
def greeting (client : Nat) (conv : UInt32) (message : Bytes) : List Move :=
  ((Kcp.Conversation.start conv).send message).1.map (.datagram 0 (clientHome client))

/-- One of two clients begins again, with a message that is no packet. -/
theorem sessions_agree_restarted :
    let s := Exchange.service .standard (Handler.echo [] [])
    let p := run s (new (.new ()))
      (greeting 0 1 (frame 5 []) ++ greeting 1 1 (frame 5 []) ++ greeting 0 2 [0])
    Numbered (Shared.new ()) ∧ Sound s (.new ()) p ∧ p.byConn.keys = [⟨2⟩] ∧
      p.log =
        [.connected ⟨1⟩ (clientHome 0), .packet ⟨1⟩ ⟨5, []⟩, .connected ⟨2⟩ (clientHome 1),
          .packet ⟨2⟩ ⟨5, []⟩, .disconnected ⟨1⟩, .connected ⟨3⟩ (clientHome 0),
          .failed ⟨3⟩ (.wire (.truncated 5 1)), .disconnected ⟨3⟩] := by
  have hshared : Numbered (Shared.new ()) := fun _ _ h => by cases h
  exact ⟨hshared, sessions_agree hshared _ _, by decide +kernel, by decide +kernel⟩

end FrameSync.Net.Battle.Poller
