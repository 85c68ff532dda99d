import RegexEngine.CommandLine.Arguments

/-!
# The program

Reads the standard input, asks `CommandLine.respond` and writes what it says.
-/

/-- All bytes that a stream has still to give, behind those already read. -/
partial def RegexEngine.CommandLine.readBytes (stream : IO.FS.Stream) (bytes : ByteArray) :
    IO ByteArray := do
  let chunk ← stream.read 65536
  if chunk.isEmpty then return bytes else readBytes stream (bytes ++ chunk)

/-- The exit code is the report's. -/
def main (arguments : List String) : IO UInt32 := do
  let stdin ← RegexEngine.CommandLine.readBytes (← IO.getStdin) .empty
  let report := RegexEngine.CommandLine.respond arguments stdin.toList
  (← IO.getStdout).putStr report.stdout
  (← IO.getStderr).putStr report.stderr
  return report.exit.toUInt32
