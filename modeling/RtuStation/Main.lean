import RtuStation.Console.Record
import RtuStation.Program
import RtuStation.World.Channel

/-!
# The command

The program at work on the standard streams. The path `/dev/stdin` leads to a terminal on which the
octets of the standard input arrive, and which hangs up after them. Replies go to the standard
output as they are, or as text if the monitor is on; notices go to the standard error.
-/

namespace RtuStation

/-- The path under which the standard input is found as a terminal. -/
def inputPath : String := "/dev/stdin"

/-- A world with a terminal on which the given octets arrive as soon as it has been opened. -/
def World.ofInput (bytes : Octets) : World :=
  let line : Line := { Channel.terminal.line with
    arrivals := [.pause, .octets bytes], rest := .ended, sink := .endless }
  let prepare : Deed Unit := do
    let number ← makeTerminal inputPath
    changeLine number fun _ => line
  (prepare.run {}).2

def World.replies (w : World) : Octets := (w.lines[0]?.map (·.sent)).getD []

/-- The octets of a stream up to its end, after those read before. -/
partial def readAll (stream : IO.FS.Stream) (before : ByteArray) : IO ByteArray := do
  let chunk ← stream.read 4096
  if chunk.isEmpty then return before
  readAll stream (before ++ chunk)

/-- The octets of the standard input, if the arguments start a session that reads them. -/
def readInput (options : Except UsageError Options) : IO ByteArray := do
  match options with
  | .error _ => return ByteArray.empty
  | .ok _ => readAll (← IO.getStdin) ByteArray.empty

end RtuStation

open RtuStation

def main (arguments : List String) : IO UInt32 := do
  let options := Options.ofArguments arguments
  let input ← readInput options
  let (code, world) := (Program.run arguments).run (World.ofInput input.toList)
  for notice in world.notices do
    if Filter.standard.shows notice then IO.eprint notice.record
  let output ← IO.getStdout
  for text in world.output do
    output.putStr text
  if let .ok o := options then
    if !o.monitor then output.write ⟨world.replies.toArray⟩
  output.flush
  return UInt32.ofNat code
