import FrameSync.Net.Lobby.Listener
import FrameSync.Proofs.Net.Notices
import FrameSync.Proofs.Net.Reassembly
import Mathlib.Data.List.Induction

/-!
# The life of a lobby connection

What a client sends is a stream (`sentOn`), and the packets in it are those that `Splits` cuts off.
A connection is read piece by piece, up to where the peer closes its side or a read fails
(`StreamEnded`), by a reader that may be told to stop at any time: by the server, by a write that
fails, by a shutdown (`Cancelled`). `Happening` lists what one move can mean for one connection, and
`Follows` is what ties its record to the stream, to the packets the handler has judged and to what
the handler has been told. Each kind of happening keeps it, so every order of moves does.

`connection_protocol` reads the protocol off it: the handler is told of the opening, then of packets
that are the first ones of the stream, up to one that is refused, and at last of the end.
-/

set_option autoImplicit false

namespace FrameSync.Net.Lobby

open Wire Reassembly

/-- The record of a connection after its reader has ended. -/
def Connection.finished (c : Connection) : Connection :=
  { c with cancelled := true, reading := false }

/-- The packet that the reader has found. -/
def Connection.Found.packet? : Connection.Found → Option Packet
  | .packet p _ => some p
  | _ => none

namespace Listener

variable {σ : Type} {h : Handler σ} {l l' : Listener σ} {conn : ConnId} {address : Address}
  {c c' : Connection} {m : Move}

/-! ## What a reader does -/

/-- The listener after a packet has been given to the handler. -/
def handed (h : Handler σ) (l : Listener σ) (conn : ConnId) (p : Packet) (rest : Bytes) : Listener σ :=
  let reaction := h.packet l.state conn p
  ((l.modify conn fun c => { c with buffer := rest }).tell (.packet conn p) reaction.state).write
    reaction.sent

/-- **A reader that finds something** ends, or hands over a packet and ends if it is refused. -/
theorem read?_eq_some (hread : l.read? h conn = some l') :
    ∃ c, l.connections.get? conn = some c ∧ c.reading = true ∧
      ((c.look l.limit = .over ∧ l' = l.finish h conn) ∨
        (∃ e, c.look l.limit = .broken e ∧ l' = (l.fail h conn e).finish h conn) ∨
        ∃ p rest, c.look l.limit = .packet p rest ∧
          l' = if (h.packet l.state conn p).accepted then l.handed h conn p rest
            else (l.handed h conn p rest).finish h conn) := by
  rw [read?] at hread
  split at hread
  · cases hread
  · rename_i c hget
    split at hread
    · cases hread
    · rename_i hreading
      rw [Bool.not_eq_true', Bool.not_eq_false] at hreading
      refine ⟨c, hget, hreading, ?_⟩
      split at hread
      · cases hread
      · rename_i hlook
        cases hread
        exact Or.inl ⟨hlook, rfl⟩
      · rename_i e hlook
        cases hread
        exact Or.inr (Or.inl ⟨e, hlook, rfl⟩)
      · rename_i p rest hlook
        refine Or.inr (Or.inr ⟨p, rest, hlook, ?_⟩)
        simp only at hread
        split at hread
        · rename_i haccepted
          cases hread
          exact (if_pos haccepted).symm
        · rename_i haccepted
          cases hread
          exact (if_neg haccepted).symm

/-- A reader finds nothing where there is none, and where no whole packet is there yet. -/
theorem read?_eq_none (hread : l.read? h conn = none) {c : Connection}
    (hget : l.connections.get? conn = some c) : c.reading = false ∨ c.look l.limit = .nothing := by
  rw [read?, hget] at hread
  by_cases hreading : c.reading = true
  · refine Or.inr ?_
    simp only [hreading, Bool.not_true, Bool.false_eq_true, if_false] at hread
    split at hread
    · assumption
    · cases hread
    · cases hread
    · split at hread <;> cases hread
  · exact Or.inl (Bool.eq_false_iff.mpr hreading)

/-! ## One connection among others -/

/-- The connection that a move is about. -/
def Move.conn? : Move → Option ConnId
  | .accept _ | .shutdown => none
  | .arrive conn _ | .hangUp conn | .readFails conn _ | .read conn | .disconnect conn
  | .readerStops conn | .writerStops conn | .writeFails conn _ => some conn

/-- A connection has the record it had, and nothing is told about it. -/
structure Untouched (conn : ConnId) (l l' : Listener σ) : Prop where
  record : l'.connections.get? conn = l.connections.get? conn
  events : eventsOf conn l'.log = eventsOf conn l.log

theorem Untouched.refl (conn : ConnId) (l : Listener σ) : Untouched conn l l := ⟨rfl, rfl⟩

theorem get?_modify (l : Listener σ) (changed conn : ConnId) (f : Connection → Connection) :
    (l.modify changed f).connections.get? conn =
      if conn = changed then (l.connections.get? conn).map f else l.connections.get? conn :=
  Table.get?_update_ite _ _ _ _

/-- The record of a connection that is changed itself. -/
theorem get?_modify_self (hget : l.connections.get? conn = some c) (f : Connection → Connection) :
    (l.modify conn f).connections.get? conn = some (f c) := by
  rw [get?_modify, if_pos rfl, hget, Option.map_some]

theorem get?_finish_self (hget : l.connections.get? conn = some c) :
    (l.finish h conn).connections.get? conn = some c.finished :=
  get?_modify_self hget _

@[simp] theorem finish_log (l : Listener σ) (conn : ConnId) :
    (l.finish h conn).log = l.log ++ [.disconnected conn] := rfl

@[simp] theorem modify_log (l : Listener σ) (conn : ConnId) (f : Connection → Connection) :
    (l.modify conn f).log = l.log := rfl

theorem Untouched.modify {changed : ConnId} (hne : conn ≠ changed) (f : Connection → Connection) :
    Untouched conn l (l.modify changed f) :=
  ⟨(get?_modify l changed conn f).trans (if_neg hne), rfl⟩

theorem Untouched.trans {l'' : Listener σ} (h₁ : Untouched conn l l') (h₂ : Untouched conn l' l'') :
    Untouched conn l l'' :=
  ⟨h₂.record.trans h₁.record, h₂.events.trans h₁.events⟩

theorem Untouched.finish {changed : ConnId} (hne : conn ≠ changed) :
    Untouched conn l (l.finish h changed) := by
  refine ⟨(get?_modify l changed conn _).trans (if_neg hne), ?_⟩
  rw [finish_log, eventsOf_append_other]
  intro n hn
  rw [List.mem_singleton.mp hn]
  exact Ne.symm hne

/-- A packet that is handed over is told about its own connection only. -/
theorem Untouched.handed {changed : ConnId} (hne : conn ≠ changed) (p : Packet) (rest : Bytes) :
    Untouched conn l (l.handed h changed p rest) := by
  refine ⟨(get?_modify l changed conn _).trans (if_neg hne), ?_⟩
  refine eventsOf_append_other fun n hn => ?_
  rw [List.mem_singleton.mp hn]
  exact Ne.symm hne

/-- A failure is no event. -/
theorem Untouched.fail (changed : ConnId) (e : TransportError) :
    Untouched conn l (l.fail h changed e) :=
  ⟨rfl, (eventsOf_append ..).trans (by rw [eventsOf_failed, List.append_nil])⟩

theorem Untouched.read? {changed : ConnId} (hne : conn ≠ changed)
    (hread : l.read? h changed = some l') : Untouched conn l l' := by
  obtain ⟨c, -, -, ⟨-, rfl⟩ | ⟨e, -, rfl⟩ | ⟨p, rest, -, rfl⟩⟩ := read?_eq_some hread
  · exact .finish hne
  · exact (Untouched.fail changed e).trans (.finish hne)
  · split
    · exact .handed hne p rest
    · exact (Untouched.handed hne p rest).trans (.finish hne)

/-- **A move about another connection** leaves a connection alone; so does an acceptance under
another number. -/
theorem untouched_apply (hconn : m.conn? ≠ some conn) (hshutdown : m ≠ .shutdown)
    (haccept : ∀ address, m = .accept address → conn ≠ ⟨l.issued + 1⟩) :
    Untouched conn l (l.apply h m) := by
  have hother : ∀ {changed}, m.conn? = some changed → conn ≠ changed := by
    rintro changed hchanged rfl
    exact hconn hchanged
  cases m with
  | accept address =>
    have hne := haccept address rfl
    refine ⟨Table.get?_insert_of_ne _ _ (Ne.symm hne), ?_⟩
    refine eventsOf_append_other fun n hn => ?_
    rw [List.mem_singleton.mp hn]
    exact Ne.symm hne
  | shutdown => exact absurd rfl hshutdown
  | read changed =>
    show Untouched conn l ((l.read? h changed).getD l)
    cases hread : l.read? h changed with
    | none => exact .refl conn l
    | some l' => exact .read? (hother rfl) hread
  | readerStops changed =>
    simp only [apply]
    split
    · exact .refl conn l
    · split
      · exact .finish (hother rfl)
      · exact .refl conn l
  | writeFails changed reason =>
    simp only [apply]
    split
    · exact .refl conn l
    · split
      · exact (Untouched.modify (hother rfl) _).trans (.fail changed _)
      · exact .refl conn l
  | arrive changed bytes => exact .modify (hother rfl) _
  | hangUp changed => exact .modify (hother rfl) _
  | readFails changed reason => exact .modify (hother rfl) _
  | disconnect changed => exact .modify (hother rfl) _
  | writerStops changed => exact .modify (hother rfl) _

/-- A move about a connection that has no record changes nothing of it. -/
theorem untouched_of_absent (hget : l.connections.get? conn = none) (hconn : m.conn? = some conn) :
    Untouched conn l (l.apply h m) := by
  have hmodify : ∀ f, Untouched conn l (l.modify conn f) := by
    intro f
    refine ⟨?_, rfl⟩
    rw [get?_modify, if_pos rfl, hget, Option.map_none]
  cases m <;> cases hconn
  case read =>
    have hnone : l.read? h conn = none := by rw [Listener.read?, hget]
    simp only [apply, hnone]
    exact .refl conn l
  case readerStops =>
    simp only [apply, hget]
    exact .refl conn l
  case writeFails =>
    simp only [apply, hget]
    exact .refl conn l
  case arrive => exact hmodify _
  case hangUp => exact hmodify _
  case readFails => exact hmodify _
  case disconnect => exact hmodify _
  case writerStops => exact hmodify _

/-- No move changes the limit, and numbers are only counted up. -/
theorem limit_apply (l : Listener σ) (m : Move) :
    (l.apply h m).limit = l.limit ∧ l.issued ≤ (l.apply h m).issued := by
  cases m with
  | accept address => exact ⟨rfl, Nat.le_max_left _ _⟩
  | read changed =>
    show ((l.read? h changed).getD l).limit = _ ∧ _ ≤ ((l.read? h changed).getD l).issued
    cases hread : l.read? h changed with
    | none => exact ⟨rfl, Nat.le_refl _⟩
    | some l' =>
      obtain ⟨c, -, -, ⟨-, rfl⟩ | ⟨e, -, rfl⟩ | ⟨p, rest, -, rfl⟩⟩ := read?_eq_some hread
      · exact ⟨rfl, Nat.le_refl _⟩
      · exact ⟨rfl, Nat.le_refl _⟩
      · rw [Option.getD_some]
        split <;> exact ⟨rfl, Nat.le_refl _⟩
  | readerStops changed =>
    simp only [apply]
    split
    · exact ⟨rfl, Nat.le_refl _⟩
    · split <;> exact ⟨rfl, Nat.le_refl _⟩
  | writeFails changed reason =>
    simp only [apply]
    split
    · exact ⟨rfl, Nat.le_refl _⟩
    · split <;> exact ⟨rfl, Nat.le_refl _⟩
  | _ => exact ⟨rfl, Nat.le_refl _⟩

theorem limit_run (l : Listener σ) (ms : List Move) : (l.run h ms).limit = l.limit := by
  induction ms generalizing l with
  | nil => rfl
  | cons m ms ih => exact (ih (l.apply h m)).trans (limit_apply l m).1

/-! ## What a move means for one connection -/

/-- The move tells the connection to stop. -/
def Move.Cancels (conn : ConnId) (m : Move) : Prop :=
  m = .shutdown ∨ m = .disconnect conn ∨ ∃ reason, m = .writeFails conn reason

/-- How the move ends the stream of a connection, if it does. -/
def Move.ending (conn : ConnId) : Move → Option Ending
  | .hangUp changed => if changed = conn then some .closed else none
  | .readFails changed reason => if changed = conn then some (.failed reason) else none
  | _ => none

/-- The bytes that a move brings to a connection. -/
def Move.bytes (conn : ConnId) : Move → Bytes
  | .arrive changed bytes => if changed = conn then bytes else []
  | _ => []

/-- The packet of a connection that a move gives to the handler, and whether it is accepted. -/
def judged (h : Handler σ) (conn : ConnId) (l : Listener σ) (m : Move) : Option (Packet × Bool) :=
  if m = .read conn then
    (l.connections.get? conn).bind fun c =>
      if c.reading then
        (c.look l.limit).packet?.map fun p => (p, (h.packet l.state conn p).accepted)
      else none
  else none

/-- What a move means for a connection with the given record: the record afterwards, the events that
are told, and the packet that is judged. A move is idle that is about something else, or comes too
late or too early. The reader has run out when it finds a header that is refused, or the end of the
stream; it has stopped when it notices that it was told to. -/
inductive Happening (conn : ConnId) (limit : Nat) (c : Connection) :
    Move → Connection → List Notice → Option (Packet × Bool) → Prop where
  | idle (m : Move) :
    (m.bytes conn ≠ [] → c.ended = true) → m.ending conn = none →
    (m.Cancels conn → c.reading = true → c.writing = false) → Happening conn limit c m c [] none
  | arrived (bytes : Bytes) :
    c.ended = false →
    Happening conn limit c (.arrive conn bytes) { c with buffer := c.buffer ++ bytes } [] none
  | ended (m : Move) (ending : Ending) :
    m.ending conn = some ending → Happening conn limit c m (c.close ending) [] none
  | took (p : Packet) (rest : Bytes) :
    c.reading = true → next limit c.buffer = .ok (some (p, rest)) →
    Happening conn limit c (.read conn) { c with buffer := rest } [.packet conn p] (some (p, true))
  | refused (p : Packet) (rest : Bytes) :
    c.reading = true → next limit c.buffer = .ok (some (p, rest)) →
    Happening conn limit c (.read conn) { c.finished with buffer := rest }
      [.packet conn p, .disconnected conn] (some (p, false))
  | ranOut :
    c.reading = true →
    ((∃ e, Refused limit c.buffer e) ∨ (c.ended = true ∧ Stop limit c.buffer)) →
    Happening conn limit c (.read conn) c.finished [.disconnected conn] none
  | cancelled (m : Move) :
    m = .shutdown ∨ m = .disconnect conn →
    Happening conn limit c m { c with cancelled := true } [] none
  | stopped :
    c.reading = true → c.cancelled = true →
    Happening conn limit c (.readerStops conn) c.finished [.disconnected conn] none
  | writerStopped :
    c.cancelled = true →
    Happening conn limit c (.writerStops conn) { c with writing := false } [] none
  | writeFailed (reason : String) :
    Happening conn limit c (.writeFails conn reason)
      { c with cancelled := true, writing := false } [] none

/-- A move about something else. -/
theorem bytes_eq_nil (hconn : m.conn? ≠ some conn) : m.bytes conn = [] := by
  cases m with
  | arrive changed bytes => exact if_neg fun heq => hconn (congrArg some heq)
  | _ => rfl

theorem ending_eq_none (hconn : m.conn? ≠ some conn) : m.ending conn = none := by
  cases m with
  | hangUp changed => exact if_neg fun heq => hconn (congrArg some heq)
  | readFails changed reason => exact if_neg fun heq => hconn (congrArg some heq)
  | _ => rfl

/-- A move that ends the stream brings no bytes and tells nobody to stop. -/
theorem quiet_of_ending {ending : Ending} (hending : m.ending conn = some ending) :
    m.bytes conn = [] ∧ ¬m.Cancels conn := by
  cases m with
  | hangUp changed => exact ⟨rfl, by simp [Move.Cancels]⟩
  | readFails changed reason => exact ⟨rfl, by simp [Move.Cancels]⟩
  | _ => cases hending

theorem Happening.elsewhere {limit : Nat} (hconn : m.conn? ≠ some conn) (hshutdown : m ≠ .shutdown) :
    Happening conn limit c m c [] none := by
  refine .idle m (fun hbytes => absurd (bytes_eq_nil hconn) hbytes) (ending_eq_none hconn) ?_
  rintro (rfl | rfl | ⟨reason, rfl⟩)
  · exact absurd rfl hshutdown
  · exact absurd rfl hconn
  · exact absurd rfl hconn

theorem judged_eq_none (hread : m ≠ .read conn) : judged h conn l m = none := if_neg hread

theorem look_eq_packet {limit : Nat} {p : Packet} {rest : Bytes}
    (hlook : c.look limit = .packet p rest) : next limit c.buffer = .ok (some (p, rest)) := by
  rw [Connection.look] at hlook
  split at hlook
  · cases hlook
  · rename_i hnext
    cases hlook
    exact hnext
  · split at hlook
    · cases hlook
    · split at hlook <;> cases hlook
    · cases hlook

/-- A reader waits where no whole packet is there and the peer may send more. -/
theorem look_eq_nothing {limit : Nat} (hlook : c.look limit = .nothing) :
    next limit c.buffer = .ok none ∧ c.ended = false := by
  rw [Connection.look] at hlook
  split at hlook
  · cases hlook
  · cases hlook
  · rename_i hnext
    refine ⟨hnext, ?_⟩
    rw [Connection.ended]
    split at hlook
    · rename_i hending
      rw [hending]
      rfl
    · split at hlook <;> cases hlook
    · cases hlook

/-- A reader that finds neither a packet nor nothing has come to the end of what it can take. -/
theorem look_ran_out {limit : Nat}
    (hlook : c.look limit = .over ∨ ∃ e, c.look limit = .broken e) :
    (∃ e, Refused limit c.buffer e) ∨ (c.ended = true ∧ Stop limit c.buffer) := by
  rw [Connection.look] at hlook
  cases hnext : next limit c.buffer with
  | error e => exact Or.inl ⟨e, next_eq_error_iff.mp hnext⟩
  | ok found =>
    rw [hnext] at hlook
    cases found with
    | some found => simp at hlook
    | none =>
      refine Or.inr ⟨?_, stop_iff.mpr fun p rest hsome => ?_⟩
      · rw [Connection.ended]
        cases hending : c.ending with
        | none => simp [hending] at hlook
        | some ending => rfl
      · rw [hnext] at hsome
        cases hsome

theorem get?_handed (hget : l.connections.get? conn = some c) (p : Packet) (rest : Bytes) :
    (l.handed h conn p rest).connections.get? conn = some { c with buffer := rest } :=
  get?_modify_self hget fun c => { c with buffer := rest }

theorem handed_log (l : Listener σ) (conn : ConnId) (p : Packet) (rest : Bytes) :
    (l.handed h conn p rest).log = l.log ++ [.packet conn p] := rfl

/-- What a look of the reader means for its own connection. -/
theorem happening_read (hget : l.connections.get? conn = some c) :
    ∃ c' events, (l.apply h (.read conn)).connections.get? conn = some c' ∧
      eventsOf conn (l.apply h (.read conn)).log = eventsOf conn l.log ++ events ∧
      Happening conn l.limit c (.read conn) c' events (judged h conn l (.read conn)) := by
  rw [judged, if_pos rfl, hget, Option.bind_some]
  simp only [apply]
  cases hread : l.read? h conn with
  | none =>
    -- there is no reader, or it has to wait
    refine ⟨c, [], hget, (List.append_nil _).symm, ?_⟩
    have hidle : Happening conn l.limit c (.read conn) c [] none :=
      .idle _ (fun hbytes => absurd rfl hbytes) rfl (by simp [Move.Cancels])
    rcases read?_eq_none hread hget with hreading | hlook
    · rwa [hreading]
    · rw [hlook]
      simpa [Connection.Found.packet?] using hidle
  | some l' =>
    obtain ⟨c₁, hget₁, hreading, hfound⟩ := read?_eq_some hread
    cases hget.symm.trans hget₁
    rw [if_pos hreading, Option.getD_some]
    rcases hfound with ⟨hlook, rfl⟩ | ⟨e, hlook, rfl⟩ | ⟨p, rest, hlook, rfl⟩
    · rw [hlook]
      refine ⟨_, _, get?_finish_self hget, ?_, .ranOut hreading (look_ran_out (Or.inl hlook))⟩
      rw [finish_log, eventsOf_append, eventsOf_disconnected]
    · rw [hlook]
      have hkept : (l.fail h conn e).connections.get? conn = some c := hget
      refine ⟨_, _, get?_finish_self hkept, ?_,
        .ranOut hreading (look_ran_out (Or.inr ⟨e, hlook⟩))⟩
      show eventsOf conn ((l.log ++ [.failed conn e]) ++ [.disconnected conn]) = _
      rw [eventsOf_append, eventsOf_append, eventsOf_failed, List.append_nil, eventsOf_disconnected]
    · rw [hlook]
      have hnext := look_eq_packet hlook
      have hhanded : (l.handed h conn p rest).connections.get? conn =
          some { c with buffer := rest } := get?_handed hget p rest
      have hfound : ((Connection.Found.packet p rest).packet?.map fun p =>
          (p, (h.packet l.state conn p).accepted)) =
          some (p, (h.packet l.state conn p).accepted) := rfl
      rw [hfound]
      cases (h.packet l.state conn p).accepted with
      | true =>
        refine ⟨_, [.packet conn p], hhanded, ?_, .took p rest hreading hnext⟩
        rw [if_pos rfl, handed_log, eventsOf_append, eventsOf_packet]
      | false =>
        refine ⟨_, [.packet conn p, .disconnected conn], get?_finish_self hhanded, ?_,
          .refused p rest hreading hnext⟩
        rw [if_neg (by simp), finish_log, handed_log, eventsOf_append, eventsOf_append,
          eventsOf_packet, eventsOf_disconnected, List.append_assoc]
        rfl

/-- **Every move is one of these happenings** for every connection that has a record. -/
theorem happening_apply (hget : l.connections.get? conn = some c)
    (haccept : ∀ address, m = .accept address → conn ≠ ⟨l.issued + 1⟩) :
    ∃ c' events, (l.apply h m).connections.get? conn = some c' ∧
      eventsOf conn (l.apply h m).log = eventsOf conn l.log ++ events ∧
      Happening conn l.limit c m c' events (judged h conn l m) := by
  have hmodify : ∀ f : Connection → Connection,
      (l.modify conn f).connections.get? conn = some (f c) := get?_modify_self hget
  have hunread : m ≠ .read conn → judged h conn l m = none := judged_eq_none
  have hquiet : ∀ log : List Notice, eventsOf conn log = eventsOf conn log ++ [] :=
    fun log => (List.append_nil _).symm
  by_cases hshutdown : m = .shutdown
  · subst hshutdown
    rw [hunread (by simp)]
    refine ⟨{ c with cancelled := true }, [], ?_, hquiet _, .cancelled _ (Or.inl rfl)⟩
    exact (Table.get?_mapValues _ _ _).trans (by rw [hget]; rfl)
  by_cases hconn : m.conn? = some conn
  · cases m with
    | accept address => cases hconn
    | shutdown => exact absurd rfl hshutdown
    | arrive changed bytes =>
      cases Option.some.inj hconn
      rw [hunread (by simp)]
      refine ⟨_, [], hmodify _, hquiet _, ?_⟩
      -- what comes behind the end of the stream does not count
      by_cases hended : c.ended = true
      · rw [if_pos hended]
        exact .idle _ (fun _ => hended) rfl (by simp [Move.Cancels])
      · rw [if_neg hended]
        exact .arrived bytes (Bool.eq_false_iff.mpr hended)
    | hangUp changed =>
      cases Option.some.inj hconn
      rw [hunread (by simp)]
      exact ⟨_, [], hmodify _, hquiet _, .ended _ .closed (if_pos rfl)⟩
    | readFails changed reason =>
      cases Option.some.inj hconn
      rw [hunread (by simp)]
      exact ⟨_, [], hmodify _, hquiet _, .ended _ (.failed reason) (if_pos rfl)⟩
    | read changed =>
      cases Option.some.inj hconn
      exact happening_read hget
    | disconnect changed =>
      cases Option.some.inj hconn
      rw [hunread (by simp)]
      refine ⟨_, [], hmodify _, hquiet _, ?_⟩
      -- a connection without a reader is gone, and is not told to stop
      by_cases hreading : c.reading = true
      · rw [if_pos hreading]
        exact .cancelled _ (Or.inr rfl)
      · rw [if_neg hreading]
        exact .idle _ (fun hbytes => absurd rfl hbytes) rfl
          (fun _ hreading' => absurd hreading' hreading)
    | readerStops changed =>
      cases Option.some.inj hconn
      rw [hunread (by simp)]
      simp only [apply, hget]
      by_cases hstops : (c.reading && c.cancelled) = true
      · rw [if_pos hstops]
        rw [Bool.and_eq_true] at hstops
        refine ⟨_, _, get?_finish_self hget, ?_, .stopped hstops.1 hstops.2⟩
        rw [finish_log, eventsOf_append, eventsOf_disconnected]
      · rw [if_neg hstops]
        exact ⟨c, [], hget, hquiet _, .idle _ (fun hbytes => absurd rfl hbytes) rfl
          (by simp [Move.Cancels])⟩
    | writerStops changed =>
      cases Option.some.inj hconn
      rw [hunread (by simp)]
      refine ⟨_, [], hmodify _, hquiet _, ?_⟩
      by_cases hcancelled : c.cancelled = true
      · rw [if_pos hcancelled]
        exact .writerStopped hcancelled
      · rw [if_neg hcancelled]
        exact .idle _ (fun hbytes => absurd rfl hbytes) rfl (by simp [Move.Cancels])
    | writeFails changed reason =>
      cases Option.some.inj hconn
      rw [hunread (by simp)]
      simp only [apply, hget]
      -- a writer that has ended has no write that could fail
      by_cases hwriting : c.writing = true
      · rw [if_pos hwriting]
        refine ⟨_, [], hmodify _, ?_, .writeFailed reason⟩
        exact (eventsOf_append ..).trans (by rw [eventsOf_failed, modify_log])
      · rw [if_neg hwriting]
        exact ⟨c, [], hget, hquiet _, .idle _ (fun hbytes => absurd rfl hbytes) rfl
          (fun _ _ => Bool.eq_false_iff.mpr hwriting)⟩
  · obtain ⟨hrecord, hevents⟩ := untouched_apply (h := h) hconn hshutdown haccept
    rw [hunread fun heq => hconn (by rw [heq]; rfl)]
    exact ⟨c, [], hrecord.trans hget, hevents.trans (hquiet _), .elsewhere hconn hshutdown⟩

/-! ## Histories of one connection -/

/-- What a client sends in a history: the bytes that arrive before its stream ends. -/
def sentOn (conn : ConnId) : List Move → Bytes
  | [] => []
  | m :: ms => if m.ending conn = none then m.bytes conn ++ sentOn conn ms else []

/-- The stream of a connection has ended. -/
def StreamEnded (conn : ConnId) (ms : List Move) : Prop := ∃ m ∈ ms, m.ending conn ≠ none

instance (conn : ConnId) (ms : List Move) : Decidable (StreamEnded conn ms) :=
  inferInstanceAs (Decidable (∃ m ∈ ms, m.ending conn ≠ none))

/-- The packets of a connection that were given to the handler, in order, and which were accepted.
-/
def judgements (h : Handler σ) (conn : ConnId) : Listener σ → List Move → List (Packet × Bool)
  | _, [] => []
  | l, m :: ms => (judged h conn l m).toList ++ judgements h conn (l.apply h m) ms

theorem judgements_append (l : Listener σ) (ms ms' : List Move) :
    judgements h conn l (ms ++ ms') =
      judgements h conn l ms ++ judgements h conn (l.run h ms) ms' := by
  induction ms generalizing l with
  | nil => rfl
  | cons m ms ih =>
    rw [List.cons_append, judgements, ih, judgements, List.append_assoc]
    rfl

theorem run_snoc (l : Listener σ) (ms : List Move) (m : Move) :
    l.run h (ms ++ [m]) = (l.run h ms).apply h m := by
  rw [run, run, List.foldl_append]
  rfl

/-- **What has been sent after one more move:** nothing is added once the stream has ended. -/
theorem sentOn_snoc (conn : ConnId) (ms : List Move) (m : Move) :
    sentOn conn (ms ++ [m]) =
      if StreamEnded conn ms then sentOn conn ms else sentOn conn ms ++ m.bytes conn := by
  induction ms with
  | nil =>
    rw [if_neg (by simp [StreamEnded])]
    cases hm : m.ending conn with
    | none => exact (if_pos hm).trans (List.append_nil _)
    | some ending =>
      rw [(quiet_of_ending hm).1]
      exact if_neg (by simp [hm])
  | cons first rest ih =>
    rw [List.cons_append, sentOn, sentOn, ih]
    have hcons : StreamEnded conn (first :: rest) ↔
        first.ending conn ≠ none ∨ StreamEnded conn rest :=
      by simp [StreamEnded]
    by_cases hfirst : first.ending conn = none
    · rw [if_pos hfirst, if_pos hfirst]
      by_cases hrest : StreamEnded conn rest
      · rw [if_pos hrest, if_pos (hcons.mpr (Or.inr hrest))]
      · have hnone : ¬StreamEnded conn (first :: rest) := fun hended =>
          (hcons.mp hended).elim (fun hsome => hsome hfirst) hrest
        rw [if_neg hrest, if_neg hnone, List.append_assoc]
    · rw [if_neg hfirst, if_neg hfirst, if_pos (hcons.mpr (Or.inl hfirst))]

/-- What the record of a connection has to do with its stream, with the packets that were judged and
with the events that were told. It is known where the peer is and whether the stream has ended. The
packets of the stream are those that were judged and those in the buffer, and what is left of the
one is left of the other. The handler has been told of the opening, of the packets judged, and of
the end.

Only the last packet may have been refused, and none while the connection is listed. A reader has
been told to stop if somebody had a reason to; a writer that has ended has been told so, or has
stopped the connection; and a reader that has ended was told to stop, or has come to where it had to
end. -/
structure Follows (conn : ConnId) (address : Address) (limit : Nat) (stops hung : Prop)
    (sent : Bytes) (js : List (Packet × Bool)) (c : Connection) (events : List Notice) : Prop where
  home : c.address = address
  ended : c.ended = true ↔ hung
  packets : (drain limit sent).packets = js.map Prod.fst ++ (drain limit c.buffer).packets
  rest : (drain limit sent).rest = (drain limit c.buffer).rest
  events : events = course conn address (js.map Prod.fst) c.reading
  accepted : ∀ j ∈ js.dropLast, j.2 = true
  listed : c.reading = true → ∀ j ∈ js, j.2 = true
  cancelled : c.reading = true → (c.cancelled = true ↔ stops)
  writing : c.writing = false → c.cancelled = true
  ending : c.reading = false → stops ∨ (∃ p, js.getLast? = some (p, false)) ∨
    (∃ e, Refused limit c.buffer e) ∨ (hung ∧ Stop limit c.buffer)

/-- A connection that has just been accepted. -/
theorem Follows.begin (conn : ConnId) (address : Address) (limit : Nat) (stopped : Bool) :
    Follows conn address limit (stopped = true) False [] [] (.accepted address stopped)
      [.connected conn address] where
  home := rfl
  ended := ⟨fun h => (by cases h), False.elim⟩
  packets := rfl
  rest := rfl
  events := rfl
  accepted := fun _ hj => by cases hj
  listed := fun _ _ hj => by cases hj
  cancelled := fun _ => Iff.rfl
  writing := fun h => by cases h
  ending := fun h => by cases h

section Follows

variable {limit : Nat} {stops hung : Prop} {sent : Bytes} {js : List (Packet × Bool)}
  {events events' : List Notice} {j : Option (Packet × Bool)}

/-- More bytes come behind those in the buffer as they do behind the stream. -/
theorem drain_append_congr {s t : Bytes} (bytes : Bytes) {front : List Packet}
    (hpackets : (drain limit s).packets = front ++ (drain limit t).packets)
    (hrest : (drain limit s).rest = (drain limit t).rest) :
    (drain limit (s ++ bytes)).packets = front ++ (drain limit (t ++ bytes)).packets ∧
      (drain limit (s ++ bytes)).rest = (drain limit (t ++ bytes)).rest := by
  rw [drain_append, drain_append limit t, hpackets, hrest]
  exact ⟨List.append_assoc .., rfl⟩

/-- A move that brings no event and judges nothing leaves the stream and the events in step. -/
theorem Follows.quiet (hf : Follows conn address limit stops hung sent js c events) {stops' : Prop}
    (haddress : c'.address = c.address) (hended : c'.ended = c.ended)
    (hbuffer : c'.buffer = c.buffer) (hreading : c'.reading = c.reading)
    (hstops : stops → stops')
    (hcancelled : c.reading = true → (c'.cancelled = true ↔ stops'))
    (hwriting : c'.writing = false → c'.cancelled = true) :
    Follows conn address limit stops' hung sent js c' events where
  home := haddress.trans hf.home
  ended := by rw [hended]; exact hf.ended
  packets := by rw [hbuffer]; exact hf.packets
  rest := by rw [hbuffer]; exact hf.rest
  events := by rw [hreading]; exact hf.events
  accepted := hf.accepted
  listed := by rw [hreading]; exact hf.listed
  cancelled := by rw [hreading]; exact hcancelled
  writing := hwriting
  ending := by
    rw [hreading, hbuffer]
    exact fun hover => (hf.ending hover).imp_left hstops

/-- Bytes arrive. -/
theorem Follows.arrived (hf : Follows conn address limit stops hung sent js c events)
    (hopen : c.ended = false) (bytes : Bytes) :
    Follows conn address limit stops hung (sent ++ bytes) js { c with buffer := c.buffer ++ bytes }
      events := by
  have hunhung : ¬hung := fun hhung => by
    rw [hf.ended.mpr hhung] at hopen
    cases hopen
  obtain ⟨hpackets, hrest⟩ := drain_append_congr bytes hf.packets hf.rest
  refine { hf with packets := hpackets, rest := hrest, ending := fun hover => ?_ }
  rcases hf.ending hover with h | h | ⟨e, he⟩ | ⟨hhung, -⟩
  · exact Or.inl h
  · exact Or.inr (Or.inl h)
  · exact Or.inr (Or.inr (Or.inl ⟨e, he.append bytes⟩))
  · exact absurd hhung hunhung

/-- A packet that is taken goes from what is left of the stream to what has been judged, whatever
the judgement. -/
theorem Follows.taken (hf : Follows conn address limit stops hung sent js c events)
    (hreading : c.reading = true) {p : Packet} {rest : Bytes}
    (hnext : next limit c.buffer = .ok (some (p, rest))) (verdict : Bool) :
    (drain limit sent).packets =
        (js ++ [(p, verdict)]).map Prod.fst ++ (drain limit rest).packets ∧
      (drain limit sent).rest = (drain limit rest).rest ∧
      events ++ [.packet conn p] = course conn address ((js ++ [(p, verdict)]).map Prod.fst) true ∧
      ∀ j ∈ (js ++ [(p, verdict)]).dropLast, j.2 = true := by
  refine ⟨?_, ?_, ?_, ?_⟩
  · rw [hf.packets, drain_of_some hnext, List.map_append, List.append_assoc]
    rfl
  · rw [hf.rest, drain_of_some hnext]
  · rw [hf.events, hreading, course_packet, List.map_append]
    rfl
  · -- the connection was listed, so none of the packets before was refused
    rw [List.dropLast_concat]
    exact hf.listed hreading

/-- A packet is taken and accepted. -/
theorem Follows.took (hf : Follows conn address limit stops hung sent js c events)
    (hreading : c.reading = true) {p : Packet} {rest : Bytes}
    (hnext : next limit c.buffer = .ok (some (p, rest))) :
    Follows conn address limit stops hung sent (js ++ [(p, true)]) { c with buffer := rest }
      (events ++ [.packet conn p]) := by
  obtain ⟨hpackets, hrest, hevents, haccepted⟩ := hf.taken hreading hnext true
  refine ⟨hf.home, hf.ended, hpackets, hrest, ?_, haccepted, ?_, hf.cancelled, hf.writing, ?_⟩
  · rw [hevents, ← hreading]
  · intro _ j hj
    rcases List.mem_append.mp hj with hj | hj
    · exact hf.listed hreading j hj
    · rw [List.mem_singleton.mp hj]
  · intro hover
    cases hreading.symm.trans hover

/-- The reader ends, for one of its reasons. -/
theorem Follows.finished (hf : Follows conn address limit stops hung sent js c events)
    (hreading : c.reading = true)
    (hreason : stops ∨ (∃ p, js.getLast? = some (p, false)) ∨
      (∃ e, Refused limit c.buffer e) ∨ (hung ∧ Stop limit c.buffer)) :
    Follows conn address limit stops hung sent js c.finished (events ++ [.disconnected conn]) where
  home := hf.home
  ended := hf.ended
  packets := hf.packets
  rest := hf.rest
  events := by rw [hf.events, hreading, course_closed]; rfl
  accepted := hf.accepted
  listed := fun h => by cases h
  cancelled := fun h => by cases h
  writing := fun _ => rfl
  ending := fun _ => hreason

/-- A packet is taken and refused. -/
theorem Follows.refused (hf : Follows conn address limit stops hung sent js c events)
    (hreading : c.reading = true) {p : Packet} {rest : Bytes}
    (hnext : next limit c.buffer = .ok (some (p, rest))) :
    Follows conn address limit stops hung sent (js ++ [(p, false)])
      ({ c with buffer := rest } : Connection).finished
      (events ++ [.packet conn p, .disconnected conn]) := by
  obtain ⟨hpackets, hrest, hevents, haccepted⟩ := hf.taken hreading hnext false
  refine ⟨hf.home, hf.ended, hpackets, hrest, ?_, haccepted, fun h => (by cases h),
    fun h => (by cases h), fun _ => rfl, fun _ => ?_⟩
  · rw [List.append_cons, hevents, course_closed]
    rfl
  · exact Or.inr (Or.inl ⟨p, by rw [List.getLast?_concat]⟩)

/-- **Every happening keeps the record in step.** -/
theorem Follows.step (hf : Follows conn address limit stops hung sent js c events)
    (hm : Happening conn limit c m c' events' j) :
    Follows conn address limit (stops ∨ m.Cancels conn) (hung ∨ m.ending conn ≠ none)
      (if c.ended then sent else sent ++ m.bytes conn) (js ++ j.toList) c' (events ++ events') := by
  have hhung : m.ending conn = none → (hung ∨ m.ending conn ≠ none) = hung :=
    fun hnone => propext (or_iff_left fun hsome => hsome hnone)
  have hstops : ¬m.Cancels conn → (stops ∨ m.Cancels conn) = stops :=
    fun hno => propext (or_iff_left hno)
  have hsent : m.bytes conn = [] → (if c.ended then sent else sent ++ m.bytes conn) = sent := by
    intro hnone
    rw [hnone, List.append_nil, ite_self]
  cases hm with
  | idle m hbytes hne hidle =>
    have hsame : (if c.ended then sent else sent ++ m.bytes conn) = sent := by
      by_cases hended : c.ended = true
      · exact if_pos hended
      · exact hsent (Classical.not_not.mp fun hsome => hended (hbytes hsome))
    rw [hsame, hhung hne, Option.toList_none, List.append_nil, List.append_nil]
    refine hf.quiet rfl rfl rfl rfl Or.inl (fun hreading => ?_) hf.writing
    -- a reason to stop that has no effect comes when the writer has ended
    rw [hf.cancelled hreading]
    refine ⟨Or.inl, fun hor => hor.elim id fun hcancels => ?_⟩
    exact (hf.cancelled hreading).mp (hf.writing (hidle hcancels hreading))
  | arrived bytes hopen =>
    have hmore : (if c.ended then sent else sent ++ (Move.arrive conn bytes).bytes conn) =
        sent ++ bytes := by
      rw [if_neg (by simp [hopen])]
      exact congrArg (sent ++ ·) (if_pos rfl)
    rw [hstops (by simp [Move.Cancels]), hhung rfl, hmore, Option.toList_none, List.append_nil,
      List.append_nil]
    exact hf.arrived hopen bytes
  | ended m ending hending =>
    obtain ⟨hnone, hcontinues⟩ := quiet_of_ending hending
    have hends : m.ending conn ≠ none := by simp [hending]
    rw [hstops hcontinues, hsent hnone, Option.toList_none, List.append_nil, List.append_nil]
    refine { hf with ended := iff_of_true ?_ (Or.inr hends), ending := fun hover => ?_ }
    · rw [Connection.ended, Connection.close, Option.isSome_or]
      exact Bool.or_true _
    · exact (hf.ending hover).imp_right (Or.imp_right (Or.imp_right (And.imp_left Or.inl)))
  | took p rest hreading hnext =>
    rw [hstops (by simp [Move.Cancels]), hhung rfl, hsent rfl]
    exact hf.took hreading hnext
  | refused p rest hreading hnext =>
    rw [hstops (by simp [Move.Cancels]), hhung rfl, hsent rfl]
    exact hf.refused hreading hnext
  | ranOut hreading hend =>
    rw [hstops (by simp [Move.Cancels]), hhung rfl, hsent rfl, Option.toList_none,
      List.append_nil]
    refine hf.finished hreading (Or.inr (Or.inr (hend.imp_right fun hstop => ?_)))
    exact ⟨hf.ended.mp hstop.1, hstop.2⟩
  | cancelled m hm =>
    have hcancels : m.Cancels conn := hm.imp_right Or.inl
    rw [hhung (by rcases hm with rfl | rfl <;> rfl),
      hsent (by rcases hm with rfl | rfl <;> rfl), Option.toList_none, List.append_nil,
      List.append_nil]
    exact hf.quiet rfl rfl rfl rfl Or.inl (fun _ => iff_of_true rfl (Or.inr hcancels)) fun _ => rfl
  | stopped hreading hcancelled =>
    rw [hstops (by simp [Move.Cancels]), hhung rfl, hsent rfl, Option.toList_none,
      List.append_nil]
    exact hf.finished hreading (Or.inl ((hf.cancelled hreading).mp hcancelled))
  | writerStopped hcancelled =>
    rw [hstops (by simp [Move.Cancels]), hhung rfl, hsent rfl, Option.toList_none,
      List.append_nil, List.append_nil]
    exact hf.quiet rfl rfl rfl rfl id hf.cancelled fun _ => hcancelled
  | writeFailed reason =>
    have hcancels : (Move.writeFails conn reason).Cancels conn := Or.inr (Or.inr ⟨reason, rfl⟩)
    rw [hhung rfl, hsent rfl, Option.toList_none, List.append_nil, List.append_nil]
    exact hf.quiet rfl rfl rfl rfl Or.inl (fun _ => iff_of_true rfl (Or.inr hcancels)) fun _ => rfl

end Follows

/-! ## Runs -/

/-- **Numbers above the greatest one issued are fresh**: no connection has one, and nothing has been
told about one. -/
theorem fresh_run (h : Handler σ) (limit : Nat) (state : σ) (ms : List Move) (conn : ConnId)
    (hfresh : (run h (new limit state) ms).issued < conn.num) :
    (run h (new limit state) ms).connections.get? conn = none ∧
      eventsOf conn (run h (new limit state) ms).log = [] := by
  induction ms using List.reverseRecOn with
  | nil => exact ⟨rfl, rfl⟩
  | append_singleton ms m ih =>
    rw [run_snoc] at hfresh ⊢
    generalize run h (new limit state) ms = l at ih hfresh ⊢
    obtain ⟨hget, hevents⟩ := ih (Nat.lt_of_le_of_lt (limit_apply l m).2 hfresh)
    have huntouched : Untouched conn l (l.apply h m) := by
      by_cases hconn : m.conn? = some conn
      · exact untouched_of_absent hget hconn
      · by_cases hshutdown : m = .shutdown
        · subst hshutdown
          exact ⟨(Table.get?_mapValues _ _ _).trans (by rw [hget]; rfl), rfl⟩
        · -- an acceptance issues a smaller number
          refine untouched_apply hconn hshutdown ?_
          rintro address rfl rfl
          exact Nat.lt_irrefl _ (Nat.lt_of_le_of_lt (Nat.le_max_right l.issued _) hfresh)
    exact ⟨huntouched.record.trans hget, huntouched.events.trans hevents⟩

/-- Somebody had a reason to stop a connection that was accepted in the given state. -/
def Cancelled (conn : ConnId) (stopped : Bool) (ms : List Move) : Prop :=
  stopped = true ∨ ∃ m ∈ ms, m.Cancels conn

/-- **In every history** the record of a connection is in step with what has happened to it. -/
theorem follows_run {stopped : Bool}
    (hget : l.connections.get? conn = some (.accepted address stopped))
    (hevents : eventsOf conn l.log = [.connected conn address]) (hnum : conn.num ≤ l.issued)
    (ms : List Move) :
    conn.num ≤ (l.run h ms).issued ∧
      ∃ c, (l.run h ms).connections.get? conn = some c ∧
        Follows conn address l.limit (Cancelled conn stopped ms) (StreamEnded conn ms)
          (sentOn conn ms) (judgements h conn l ms) c (eventsOf conn (l.run h ms).log) := by
  -- from the end of the history, so that the last move is one step from the record before it
  induction ms using List.reverseRecOn with
  | nil =>
    refine ⟨hnum, _, hget, ?_⟩
    have hstops : Cancelled conn stopped [] = (stopped = true) := by simp [Cancelled]
    have hhung : StreamEnded conn [] = False := by simp [StreamEnded]
    rw [hstops, hhung]
    show Follows conn address l.limit _ _ [] [] _ (eventsOf conn l.log)
    rw [hevents]
    exact .begin conn address l.limit stopped
  | append_singleton ms m ih =>
    obtain ⟨hissued, c, hrecord, hf⟩ := ih
    have haccept : ∀ address, m = .accept address → conn ≠ ⟨(l.run h ms).issued + 1⟩ := by
      rintro _ - rfl
      exact Nat.not_succ_le_self _ hissued
    obtain ⟨c', events, hrecord', htold, hm⟩ := happening_apply (h := h) hrecord haccept
    rw [limit_run] at hm
    -- what the last move adds to each of the parts that the history is read into
    have hstep := hf.step hm
    have hstops : (Cancelled conn stopped ms ∨ m.Cancels conn) = Cancelled conn stopped (ms ++ [m]) := by
      simp only [Cancelled, List.mem_append, List.mem_singleton, or_and_right, exists_or,
        exists_eq_left, or_assoc]
    have hhung : (StreamEnded conn ms ∨ m.ending conn ≠ none) = StreamEnded conn (ms ++ [m]) := by
      simp only [StreamEnded, List.mem_append, List.mem_singleton, or_and_right, exists_or,
        exists_eq_left]
    have hsent : (if c.ended = true then sentOn conn ms else sentOn conn ms ++ m.bytes conn) =
        sentOn conn (ms ++ [m]) := by
      rw [sentOn_snoc]
      simp only [hf.ended]
    have hjudged : judgements h conn l (ms ++ [m]) =
        judgements h conn l ms ++ (judged h conn (l.run h ms) m).toList := by
      rw [judgements_append, judgements, judgements, List.append_nil]
    rw [hstops, hhung, hsent, ← hjudged, ← htold] at hstep
    rw [run_snoc]
    exact ⟨Nat.le_trans hissued (limit_apply _ m).2, c', hrecord', hstep⟩

/-! ## How a connection ends -/

theorem listed_of_get? (hget : l.connections.get? conn = some c) : l.listed conn = c.reading := by
  rw [listed, hget]
  rfl

/-- Where no reader is, nothing is read. -/
theorem readUpTo_of_finished (hget : l.connections.get? conn = some c) (hover : c.reading = false)
    (n : Nat) : readUpTo h n l conn = l := by
  cases n with
  | zero => rfl
  | succ n =>
    have hread : l.read? h conn = none := by
      rw [read?, hget]
      simp only [hover, Bool.not_false, if_true]
    simp only [readUpTo, hread]

/-- **A reader that is let read** ends, if the peer has ended its side or a header in the buffer is
refused. -/
theorem readUpTo_ends (n : Nat) (hget : l.connections.get? conn = some c)
    (hlength : c.buffer.length < n)
    (hend : c.ended = true ∨ ∃ e, Refused l.limit (drain l.limit c.buffer).rest e) :
    (readUpTo h n l conn).listed conn = false := by
  -- on the number of looks: each that hands over a packet takes a byte at least off the buffer
  induction n generalizing l c with
  | zero => exact absurd hlength (Nat.not_lt_zero _)
  | succ n ih =>
    have hfinish : ∀ {l' : Listener σ} {c' : Connection}, l'.connections.get? conn = some c' →
        (readUpTo h n (l'.finish h conn) conn).listed conn = false := by
      intro l' c' hget'
      have hover := get?_finish_self (h := h) hget'
      rw [readUpTo_of_finished hover rfl, listed_of_get? hover]
      rfl
    cases hread : l.read? h conn with
    | none =>
      simp only [readUpTo, hread]
      rw [listed_of_get? hget]
      refine (read?_eq_none hread hget).resolve_right fun hlook => ?_
      -- a reader that has to wait would find something later
      obtain ⟨hnext, hopen⟩ := look_eq_nothing hlook
      rcases hend with hended | ⟨e, hrefused⟩
      · rw [hended] at hopen
        cases hopen
      · rw [drain_of_none hnext, ← next_eq_error_iff, hnext] at hrefused
        cases hrefused
    | some l' =>
      simp only [readUpTo, hread]
      obtain ⟨c₁, hget₁, -, ⟨-, rfl⟩ | ⟨e, -, rfl⟩ | ⟨p, rest, hlook, rfl⟩⟩ := read?_eq_some hread
      · exact hfinish hget
      · have hkept : (l.fail h conn e).connections.get? conn = some c := hget
        exact hfinish hkept
      · cases hget.symm.trans hget₁
        have hnext := look_eq_packet hlook
        have hhanded := get?_handed (h := h) hget p rest
        split
        · refine ih hhanded ?_ (hend.imp_right ?_)
          · have := length_rest_lt hnext
            show rest.length < n
            omega
          · rintro ⟨e, hrefused⟩
            rw [drain_of_some hnext] at hrefused
            exact ⟨e, hrefused⟩
        · exact hfinish hhanded

/-! ## The protocol -/

/-- What the handler of a listener is told about a connection whose client has sent the packets
`whole` and, behind them, bytes that form no packet; `js` are the packets that the handler judged.
It is told of the opening first, then of packets, then of the end: once the connection is gone, and
not before. The address told first can be looked up as long as the connection is listed.

The packets are the first ones of the stream, in order. None comes after one that is refused, and a
connection that is listed has had none refused. Nobody having stopped it, a connection that is gone
has brought all packets, or all up to one that was refused; a connection that is listed has brought
all that there is, or the reader finds more.

A connection that was told to stop is gone once its reader notices, and any is gone once its reader
has come to the end of the stream, or to a header that is refused. When the handler has been told of
the end, the connection is not listed and nothing can be sent to it. -/
structure Protocol (h : Handler σ) (conn : ConnId) (address : Address) (stops hung : Prop)
    (whole : List Packet) (rest : Bytes) (js : List (Packet × Bool)) (l : Listener σ) : Prop where
  events : eventsOf conn l.log = course conn address (js.map Prod.fst) (l.listed conn)
  peer : l.peerAddress conn = if l.listed conn then some address else none
  inOrder : js.map Prod.fst <+: whole
  accepted : ∀ j ∈ js.dropLast, j.2 = true
  listed : l.listed conn = true → ∀ j ∈ js, j.2 = true
  complete : ¬stops → l.listed conn = false →
    js.map Prod.fst = whole ∨ ∃ p, js.getLast? = some (p, false)
  upToDate : l.listed conn = true → l.read? h conn = none → js.map Prod.fst = whole
  stopped : stops → (l.apply h (.readerStops conn)).listed conn = false
  ends : hung ∨ (∃ e, Refused l.limit rest e) → (l.readAll h conn).listed conn = false
  gone : .disconnected conn ∈ l.log → l.listed conn = false ∧ conn ∉ l.openConns ∧
    ∀ packet, l.send ⟨conn, packet⟩ = .error (.unknownConnection conn)

section Protocol

variable {limit : Nat} {stops hung : Prop} {sent : Bytes} {js : List (Packet × Bool)}

/-- A connection that has no reader is not listed, and nothing can be sent to it. -/
theorem unreachable_of_finished (hget : l.connections.get? conn = some c) (hover : c.reading = false) :
    conn ∉ l.openConns ∧ ∀ packet, l.send ⟨conn, packet⟩ = .error (.unknownConnection conn) := by
  constructor
  · intro hmem
    obtain ⟨c', hkept⟩ := Table.mem_keys_iff.mp hmem
    rw [Table.get?_filter, hget, Option.filter_eq_some_iff] at hkept
    obtain ⟨hc', hreading⟩ := hkept
    rw [← Option.some.inj hc', hover] at hreading
    cases hreading
  · intro packet
    have hreach : l.reachable conn = false := by
      rw [reachable, hget, Option.map_some, Option.getD_some, hover, Bool.false_and]
    rw [send]
    simp only [hreach, Bool.false_eq_true, if_false]

/-- **What follows from the record being in step.** -/
theorem Follows.protocol (hget : l.connections.get? conn = some c)
    (hf : Follows conn address l.limit stops hung sent js c (eventsOf conn l.log)) :
    Protocol h conn address stops hung (drain l.limit sent).packets (drain l.limit sent).rest
      js l where
  events := by rw [listed_of_get? hget]; exact hf.events
  peer := by
    rw [peerAddress, listed_of_get? hget, hget, ← hf.home, Option.filter_some]
    split
    · rfl
    · rfl
  inOrder := by rw [hf.packets]; exact List.prefix_append _ _
  accepted := hf.accepted
  listed := by rw [listed_of_get? hget]; exact hf.listed
  complete := by
    rw [listed_of_get? hget, hf.packets]
    intro hfree hover
    -- stopped, refused by the handler, ended by a fault, or hung up on with nothing left to read
    rcases hf.ending hover with hstops | hrefused | ⟨e, he⟩ | ⟨-, hstop⟩
    · exact absurd hstops hfree
    · exact Or.inr hrefused
    · rw [drain_of_error (next_eq_error_iff.mpr he), List.append_nil]
      exact Or.inl rfl
    · rw [(drain_of_stop hstop).1, List.append_nil]
      exact Or.inl rfl
  upToDate := by
    rw [listed_of_get? hget, hf.packets]
    intro hreading hread
    have hwaits := (read?_eq_none hread hget).resolve_left (by simp [hreading])
    rw [drain_of_none (look_eq_nothing hwaits).1, List.append_nil]
  stopped := by
    intro hstops
    simp only [apply, hget]
    by_cases hreading : c.reading = true
    · have hcancelled := (hf.cancelled hreading).mpr hstops
      rw [hreading, hcancelled, Bool.and_self, if_pos rfl, listed_of_get? (get?_finish_self hget)]
      rfl
    · rw [Bool.eq_false_iff.mpr hreading, Bool.false_and, if_neg (by simp), listed_of_get? hget]
      exact Bool.eq_false_iff.mpr hreading
  ends := by
    intro hend
    rw [readAll, hget]
    refine readUpTo_ends _ hget (Nat.lt_succ_self _) ?_
    rw [hf.ended, ← hf.rest]
    exact hend
  gone := by
    intro htold
    rw [← disconnected_mem_eventsOf, hf.events, disconnected_mem_course] at htold
    rw [listed_of_get? hget]
    exact ⟨htold, unreachable_of_finished hget htold⟩

end Protocol

/-- **The protocol of a lobby connection.** A connection is accepted by a listener with any history
behind it, and then anything happens in any order: bytes arrive in any pieces, for it and for
others, the peer ends its side, a read fails, the server tells it to stop, a write fails, the
listener is shut down, reader and writer notice what has happened. What the handler is told about it
is the opening, then packets, then at most one end; and the packets are those that the client's
stream is cut into, from the first one on. -/
theorem connection_protocol (h : Handler σ) (limit : Nat) (state : σ) (before ms : List Move)
    (address : Address) :
    let l₀ := run h (new limit state) before
    let conn : ConnId := ⟨l₀.issued + 1⟩
    let l₁ := l₀.apply h (.accept address)
    ∃ whole rest, Splits limit (sentOn conn ms) whole rest ∧
      Protocol h conn address (Cancelled conn l₀.stopped ms) (StreamEnded conn ms) whole rest
        (judgements h conn l₁ ms) (run h l₁ ms) := by
  intro l₀ conn l₁
  have hlimit : l₁.limit = limit :=
    (limit_apply l₀ (.accept address)).1.trans (limit_run (new limit state) before)
  obtain ⟨-, hunknown⟩ := fresh_run h limit state before conn (Nat.lt_succ_self _)
  have hget : l₁.connections.get? conn = some (.accepted address l₀.stopped) :=
    Table.get?_insert_self _ _ _
  have hevents : eventsOf conn l₁.log = [.connected conn address] := by
    show eventsOf conn (l₀.log ++ [.connected conn address]) = _
    rw [eventsOf_append, hunknown, eventsOf_connected]
    rfl
  obtain ⟨-, c, hrecord, hf⟩ := follows_run (h := h) hget hevents (Nat.le_max_right _ _) ms
  rw [← limit_run (h := h) l₁ ms] at hf
  have hprotocol := hf.protocol (h := h) hrecord
  rw [limit_run, hlimit] at hprotocol
  exact ⟨_, _, splits_drain limit _, hprotocol⟩

end Listener

end FrameSync.Net.Lobby
