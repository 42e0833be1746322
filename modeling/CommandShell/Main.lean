import CommandShell.CommandLine

/-!
# The program

The command line on a host in memory: its files start with the usual devices and the program that
runs scripts, and last as long as the program. Standard input is read before the shell starts.
-/

namespace CommandShell

/-- The variables that the shell takes over from its surroundings. -/
def inheritedNames : List String := ["HOME", "PATH", "HISTFILE", CommandLine.filterVariable]

/-- The directory that the shell starts in. -/
def workingDirectory : Location := ["tmp"]

/-- Reads a stream to its end. -/
partial def readAll (stream : IO.FS.Stream) (soFar : Bytes) : IO Bytes := do
  let chunk ← stream.read 4096
  if chunk.isEmpty then return soFar
  readAll stream (soFar ++ chunk.data.toList)

/-- Writes bytes to a stream. -/
def writeAll (stream : IO.FS.Stream) (bytes : Bytes) : IO Unit := do
  stream.write ⟨bytes.toArray⟩
  stream.flush

end CommandShell

open CommandShell in
/-- Runs the shell with the arguments of the program, and ends with its status. -/
def main (arguments : List String) : IO UInt32 := do
  let bindings ← inheritedNames.filterMapM fun name => do
    return (← IO.getEnv name).map (name, ·)
  let input ← readAll (← IO.getStdin) []
  let host := Host.start FileSystem.standard input bindings
  let (status, host) := CommandLine.run arguments (.initial workingDirectory) host
  writeAll (← IO.getStdout) host.output.bytes
  writeAll (← IO.getStderr) host.error.bytes
  return status.lowByte.toNat.toUInt32
