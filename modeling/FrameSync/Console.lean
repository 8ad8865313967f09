import FrameSync.Server.Exchange
import FrameSync.Text.Hex

/-!
# The console

A server can be tried by hand, one line for each step: `parse` reads what a client or the server
does, `Exchange.step` does it, and `render` writes what came of it, one line for the answer and one
for each thing that arrived at a client. Bytes are written in hexadecimal, clients by their number,
and each kind of client is counted from zero.
-/

set_option autoImplicit false

namespace FrameSync.Console

open Net

/-- What a line asks for: a step, and how many milliseconds it takes beyond the usual time. -/
structure Request where
  action : Server.Action
  ms : Nat
deriving DecidableEq, Repr

/-- The words of a line. -/
def words (line : String) : List String :=
  (line.splitOn " ").filter fun w => w ≠ ""

/-- A step of a lobby client. -/
def lobby (step : Lobby.Step) : Request := ⟨.lobby step, 0⟩

/-- A step of a battle client. -/
def battle (step : Battle.Step) : Request := ⟨.battle step, 0⟩

/-- The request of a line of one number, or of a number and another word. -/
def ofWords : List String → Option Request
  | ["connect"] => some (lobby .connect)
  | ["half-close", client] => client.toNat?.map fun n => lobby (.halfClose n)
  | ["close", client] => client.toNat?.map fun n => lobby (.close n)
  | ["write", client, hex] =>
    match client.toNat?, Hex.ofText hex with
    | some n, some bytes => some (lobby (.write n bytes))
    | _, _ => none
  | ["open", conv] => conv.toNat?.map fun n => battle (.openClient (UInt32.ofNat n))
  | ["converse", client, conv] =>
    match client.toNat?, conv.toNat? with
    | some n, some c => some (battle (.converse n (UInt32.ofNat c)))
    | _, _ => none
  | ["message", client, hex] =>
    match client.toNat?, Hex.ofText hex with
    | some n, some bytes => some (battle (.message n bytes))
    | _, _ => none
  | ["datagram", client, hex] =>
    match client.toNat?, Hex.ofText hex with
    | some n, some bytes => some (battle (.datagram n bytes))
    | _, _ => none
  | ["wait", ms] => ms.toNat?.map fun n => ⟨.idle, n⟩
  | ["shutdown"] => some ⟨.shutdown, 0⟩
  | _ => none

/-- The request of a line. -/
def parse (line : String) : Option Request := ofWords (words line)

/-- The line for an answer. -/
def answerLine : Server.Exchange.Answer → String
  | .lobby (.connected n) => "lobby client " ++ Nat.repr n
  | .lobby .refused => "refused"
  | .lobby (.failed e) => e.message
  | .battle (.opened n) => "battle client " ++ Nat.repr n
  | .battle .inactive => "the battle channel is not open"
  | .battle (.failed e) => e.message
  | .lobby .done | .battle .done | .battle (.started _) | .battle .restarted | .done => "done"

/-- The lines for what arrived at a lobby client. -/
def lobbyLines (n : Nat) (c : Lobby.Client) : List String :=
  (if c.received = [] then [] else ["lobby " ++ Nat.repr n ++ " " ++ Hex.text c.received]) ++
    if c.closed then ["lobby " ++ Nat.repr n ++ " closed"] else []

/-- The lines for what arrived at a battle client. -/
def battleLines (n : Nat) (c : Battle.Client) : List String :=
  c.received.map fun message => "battle " ++ Nat.repr n ++ " " ++ Hex.text message

/-- The lines for clients numbered from `n` on. -/
def numbered {α : Type} (lines : Nat → α → List String) : Nat → List α → List String
  | _, [] => []
  | n, c :: rest => lines n c ++ numbered lines (n + 1) rest

/-- The lines for the outcome of a step. -/
def render (answer : Server.Exchange.Answer) (x : Server.Exchange) : List String :=
  answerLine answer :: numbered lobbyLines 0 x.lobby.clients ++
    numbered battleLines 0 x.battle.clients

/-- Carry out a line. -/
def run (x : Server.Exchange) (line : String) : List String × Server.Exchange :=
  match parse line with
  | none => (["what?"], x)
  | some r =>
    match x.step r.action r.ms with
    | none => (["no such client"], x)
    | some (answer, x') => (render answer x', x')

/-- The first lines: where the server listens. -/
def banner (settings : Settings) : List String :=
  ["lobby " ++ settings.lobbyAddress.text, "battle " ++ settings.battleAddress.text]

end FrameSync.Console
