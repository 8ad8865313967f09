/-!
# The life of a room

A room is created, waits for its members to be ready, runs, and closes. It moves one phase forward
at a time, or straight to the end from anywhere else.
-/

set_option autoImplicit false

namespace FrameSync.Room

/-- Where a room is in its life: members can still join; every place is taken, but not every member
is ready; the battle is on; or the room takes no part in anything any more. -/
inductive Phase where
  | created
  | waitingReady
  | running
  | closed
deriving DecidableEq, Repr

namespace Phase

/-- The name of a phase. -/
def name : Phase → String
  | created => "Created"
  | waitingReady => "WaitingReady"
  | running => "Running"
  | closed => "Closed"

/-- Can members join? -/
def joinable (p : Phase) : Bool := p = created

/-- Is the battle on? -/
def isRunning (p : Phase) : Bool := p = running

/-- The phase that comes after. -/
def next : Phase → Option Phase
  | created => some waitingReady
  | waitingReady => some running
  | running => some closed
  | closed => none

/-- Is the move from one phase to another allowed? -/
def canMoveTo (p target : Phase) : Bool :=
  p.next = some target || (target = closed && p ≠ closed)

end Phase

end FrameSync.Room
