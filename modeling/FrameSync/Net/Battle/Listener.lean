import FrameSync.Net.Battle.Poller

/-!
# The battle listener

The listener is stopped until it is started, and can be stopped and started again. Each start binds
a socket, which may fail, and begins a new generation with a poll task of its own; a task that has
been told to stop lives on until it notices, or until its socket fails, and only then closes its
connections (`finish`). Orders of senders wait in the queue of the generation that is running. A
task that ends leaves a newer generation alone: it closes its own connections only, and the listener
stays running unless the task was that of the running generation.

`Move` is everything that can happen, in any order: `apply` is one move, `run` a history. A move of
a task that has ended changes nothing.
-/

set_option autoImplicit false

namespace FrameSync.Net.Battle

open Wire

/-- The generation that is running, and where it listens. -/
structure Running where
  generation : Nat
  address : Address
deriving DecidableEq, Repr

/-- The poll task of one generation: its sessions, and the orders it has not carried out, the next
one first. -/
structure PollTask (κ : Type) where
  tables : Tables κ
  queue : List Command

/-- A battle listener with its handler's state: the generation that is running, if any, the number
of generations so far, the tasks that have not ended, by generation, and what they share. -/
structure Listener (κ σ : Type) where
  running : Option Running
  generations : Nat
  tasks : Table Nat (PollTask κ)
  shared : Shared σ

namespace Listener

variable {κ σ : Type}

/-- A listener that has not been started. -/
def new (state : σ) : Listener κ σ := ⟨none, 0, Table.empty, .new state⟩

/-! ## Views -/

/-- Is the listener running? -/
def isActive (l : Listener κ σ) : Bool := l.running.isSome

/-- The number of open connections. -/
def connectionCount (l : Listener κ σ) : Nat := l.shared.peers.size

/-- Where the peer of an open connection is. -/
def clientAddress (l : Listener κ σ) (conn : ConnId) : Option Address :=
  (l.shared.peers.get? conn).map Address.canonical

/-- Does a generation take orders? -/
def takesOrders (l : Listener κ σ) (generation : Nat) : Bool :=
  match l.running with
  | none => false
  | some r => r.generation = generation

/-! ## Starting and stopping -/

/-- What a start answers: where the listener listens, and whether it was running before. -/
structure Started where
  address : Address
  alreadyRunning : Bool
deriving DecidableEq, Repr

/-- Start listening; `bound` is what comes of binding the socket. A listener that is running stays
as it is and binds nothing. -/
def start (l : Listener κ σ) (bound : Except String Address) :
    Except TransportError Started × Listener κ σ :=
  match l.running with
  | some r => (.ok ⟨r.address, true⟩, l)
  | none =>
    match bound with
    | .error reason => (.error (.bindFailed reason), l)
    | .ok address =>
      let generation := l.generations + 1
      (.ok ⟨address, false⟩,
        { l with
          running := some ⟨generation, address⟩
          generations := generation
          tasks := l.tasks.insert generation ⟨.empty, []⟩ })

/-- Tell the running generation to stop. -/
def shutdown (l : Listener κ σ) : Listener κ σ := { l with running := none }

/-! ## Orders -/

/-- Put an order into the queue of the running generation. -/
def enqueue (l : Listener κ σ) (c : Command) : Except TransportError (Listener κ σ) :=
  match l.running with
  | none => .error .notRunning
  | some r =>
    .ok { l with
      tasks := l.tasks.update r.generation fun t => { t with queue := t.queue ++ [c] } }

/-- Order a packet to be sent to an open connection. -/
def send (l : Listener κ σ) (d : Delivery) : Except TransportError (Listener κ σ) :=
  if !l.isActive then .error .notRunning
  else if !l.shared.peers.contains d.conn then .error (.unknownConnection d.conn)
  else l.enqueue (.send d)

/-- Order packets to be sent; those that cannot be are dropped. -/
def sendAll (l : Listener κ σ) (ds : List Delivery) : Listener κ σ :=
  ds.foldl (fun l d =>
    match l.send d with
    | .ok l' => l'
    | .error _ => l) l

/-- Order a connection to be closed. A listener that is not running ignores it. -/
def disconnect (l : Listener κ σ) (conn : ConnId) : Listener κ σ :=
  match l.enqueue (.disconnect conn) with
  | .ok l' => l'
  | .error _ => l

/-! ## Tasks -/

/-- Let the task of a generation do something; what its handler asks to send becomes orders. -/
def onTask (l : Listener κ σ) (generation : Nat) (f : Poller κ σ → Poller κ σ) : Listener κ σ :=
  match l.tasks.get? generation with
  | none => l
  | some t =>
    let p := f ⟨t.tables, l.shared⟩
    -- A task that has been told to stop may still ask: its orders go to the running generation.
    let l := { l with
      tasks := l.tasks.insert generation { t with tables := p.toTables }
      shared := { p.toShared with asked := [] } }
    l.sendAll p.asked

/-- The task of a generation carries out its next order. -/
def serve (s : Service κ σ) (l : Listener κ σ) (generation : Nat) : Listener κ σ :=
  match l.tasks.get? generation with
  | none => l
  | some t =>
    match t.queue with
    | [] => l
    | c :: queue =>
      { l with tasks := l.tasks.insert generation { t with queue } }.onTask generation
        fun p => p.command s c

/-- The task of a generation ends, and closes its connections in an order of choice. -/
def finish (s : Service κ σ) (order : List ConnId) (l : Listener κ σ) (generation : Nat) :
    Listener κ σ :=
  match l.tasks.get? generation with
  | none => l
  | some t =>
    let p := Poller.teardown s ⟨t.tables, l.shared⟩ order
    { l with
      running := if l.takesOrders generation then none else l.running
      tasks := l.tasks.erase generation
      shared := p.toShared }

/-! ## Histories -/

/-- What can happen to a listener: it is started, or its socket cannot be bound; it is told to stop;
a sender orders a packet, or a connection to be closed. The task of a generation is given a
datagram, carries out its next order, looks after its sessions, or ends because it has noticed the
stop or its socket has failed; the last two go through the connections in the given order. -/
inductive Move where
  | start (address : Address)
  | startFails (reason : String)
  | shutdown
  | send (delivery : Delivery)
  | disconnect (conn : ConnId)
  | datagram (generation now : Nat) (address : Address) (data : Bytes)
  | serve (generation : Nat)
  | update (generation now : Nat) (order : List ConnId)
  | finish (generation : Nat) (order : List ConnId)
deriving DecidableEq, Repr

/-- Make one move. -/
def apply (s : Service κ σ) (l : Listener κ σ) : Move → Listener κ σ
  | .start address => (l.start (.ok address)).2
  | .startFails reason => (l.start (.error reason)).2
  | .shutdown => l.shutdown
  | .send d => l.sendAll [d]
  | .disconnect conn => l.disconnect conn
  | .datagram generation now address data =>
    l.onTask generation fun p => p.datagram s now address data
  | .serve generation => l.serve s generation
  | .update generation now order => l.onTask generation fun p => p.update s now order
  | .finish generation order => l.finish s order generation

/-- Make the moves of a history in order. -/
def run (s : Service κ σ) (l : Listener κ σ) (ms : List Move) : Listener κ σ := ms.foldl (apply s) l

/-! ## Settling -/

/-- The running generation carries out all its orders. -/
def serveAll (s : Service κ σ) (l : Listener κ σ) : Listener κ σ :=
  match l.running with
  | none => l
  | some r =>
    match l.tasks.get? r.generation with
    | none => l
    | some t => (List.replicate t.queue.length r.generation).foldl (serve s) l

/-- Every task that has been told to stop ends. -/
def settle (s : Service κ σ) (l : Listener κ σ) : Listener κ σ :=
  (l.tasks.keys.filter fun g => !l.takesOrders g).foldl (finish s []) l

end Listener

end FrameSync.Net.Battle
