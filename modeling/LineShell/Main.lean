/-
The shell as a program: its words and its standard input go in, and what it has written comes out when it is done.
Children run on a machine of the program's own.
-/
import LineShell.CommandLine

namespace LineShell

/-- read a stream to its end -/
partial def readToEnd (stream : IO.FS.Stream) (found : ByteArray) : IO ByteArray := do
  let chunk ← stream.read 65536
  if chunk.isEmpty then return found else readToEnd stream (found ++ chunk)

/-- the directory in which the program works -/
def workDirectory : String := "/home/shell"

end LineShell

open LineShell in
/-- the program -/
def main (args : List String) : IO UInt32 := do
  let stdin ← IO.getStdin
  let input : Option Bytes ← if ← stdin.isTty then pure none
    else do pure (some (← readToEnd stdin ByteArray.empty).data.toList)
  let r := CommandLine.run args input (Machine.world workDirectory)
  let stdout ← IO.getStdout
  stdout.write ⟨r.world.hostOut.toArray⟩
  stdout.flush
  let stderr ← IO.getStderr
  stderr.write ⟨r.world.hostErr.toArray⟩
  return UInt32.ofNat r.status
