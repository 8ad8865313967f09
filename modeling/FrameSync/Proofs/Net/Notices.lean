import FrameSync.Net.Handler

/-!
# What a handler is told about one connection

Both listeners keep a log of what the handler has been told. `eventsOf` is the part of a log about
one connection, apart from failures, which may come at any time; `course` is what that part looks
like for a connection that was opened, has brought some packets, and is open or gone. So the handler
is told of the opening once and first, and of the end at most once and last.
-/

set_option autoImplicit false

namespace FrameSync.Net

open Wire

/-- Is the notice about something that went wrong? -/
def Notice.isFailure : Notice → Bool
  | .failed _ _ => true
  | _ => false

/-- What a log says about one connection, apart from failures. -/
def eventsOf (conn : ConnId) (log : List Notice) : List Notice :=
  log.filter fun n => n.conn = conn && !n.isFailure

/-- The events of a connection of a peer that has brought the given packets. -/
def course (conn : ConnId) (address : Address) (packets : List Packet) (isOpen : Bool) :
    List Notice :=
  .connected conn address :: packets.map (.packet conn) ++
    if isOpen then [] else [.disconnected conn]

section Events

variable {conn : ConnId} {address : Address} {log : List Notice} {n : Notice} {packets : List Packet}
  {isOpen : Bool}

theorem eventsOf_append (conn : ConnId) (log log' : List Notice) :
    eventsOf conn (log ++ log') = eventsOf conn log ++ eventsOf conn log' := List.filter_append ..

/-- What is told about others, or of failures, is none of the events. -/
theorem eventsOf_eq_nil (h : ∀ n ∈ log, n.conn ≠ conn ∨ n.isFailure = true) :
    eventsOf conn log = [] := by
  refine List.filter_eq_nil_iff.mpr fun n hn hkept => ?_
  rw [Bool.and_eq_true, decide_eq_true_eq, Bool.not_eq_true'] at hkept
  rcases h n hn with hother | hfailure
  · exact hother hkept.1
  · rw [hkept.2] at hfailure
    cases hfailure

/-- What is told about other connections is none of the events. -/
theorem eventsOf_append_other {log' : List Notice} (hother : ∀ n ∈ log', n.conn ≠ conn) :
    eventsOf conn (log ++ log') = eventsOf conn log := by
  rw [eventsOf_append, eventsOf_eq_nil fun n hn => Or.inl (hother n hn), List.append_nil]

@[simp] theorem eventsOf_connected (conn : ConnId) (address : Address) :
    eventsOf conn [.connected conn address] = [.connected conn address] := by
  simp [eventsOf, Notice.conn, Notice.isFailure]

@[simp] theorem eventsOf_packet (conn : ConnId) (p : Packet) :
    eventsOf conn [.packet conn p] = [.packet conn p] := by
  simp [eventsOf, Notice.conn, Notice.isFailure]

@[simp] theorem eventsOf_failed (conn c : ConnId) (e : TransportError) :
    eventsOf conn [.failed c e] = [] := by
  simp [eventsOf, Notice.isFailure]

@[simp] theorem eventsOf_disconnected (conn : ConnId) :
    eventsOf conn [.disconnected conn] = [.disconnected conn] := by
  simp [eventsOf, Notice.conn, Notice.isFailure]

/-- **One packet more.** -/
theorem course_packet (conn : ConnId) (address : Address) (packets : List Packet) (p : Packet) :
    course conn address packets true ++ [.packet conn p] =
      course conn address (packets ++ [p]) true := by
  simp [course]

/-- **The end.** -/
theorem course_closed (conn : ConnId) (address : Address) (packets : List Packet) :
    course conn address packets true ++ [.disconnected conn] =
      course conn address packets false := by
  simp [course]

theorem disconnected_mem_eventsOf :
    .disconnected conn ∈ eventsOf conn log ↔ .disconnected conn ∈ log := by
  simp [eventsOf, Notice.conn, Notice.isFailure]

/-- The end has been told exactly if the connection is gone. -/
theorem disconnected_mem_course :
    .disconnected conn ∈ course conn address packets isOpen ↔ isOpen = false := by
  cases isOpen <;> simp [course]

end Events

end FrameSync.Net
