import FrameSync.Console

/-!
# The program

A server with the stock settings, steered by the lines of standard input until they end or the
server has been told to stop.
-/

set_option autoImplicit false

namespace FrameSync

/-- Carry out the lines of the input one by one. -/
partial def serve (input output : IO.FS.Stream) (x : Server.Exchange) : IO Unit := do
  if x.stopped then return
  let line ← input.getLine
  if line.isEmpty then return
  let (answers, x) := Console.run x line.trimAscii.toString
  for answer in answers do
    output.putStrLn answer
  output.flush
  serve input output x

end FrameSync

/-- Run the stock server. -/
def main : IO Unit := do
  let input ← IO.getStdin
  let output ← IO.getStdout
  for line in FrameSync.Console.banner .standard do
    output.putStrLn line
  FrameSync.serve input output (.ofSettings .standard .loopback)
