import BearerToken.Command.Run
import Std.Time.DateTime.Timestamp

/-!
# The program

Hands the arguments, the environment, the clock and random bytes to the command, and prints what
comes of it: the result on standard output, the log lines on standard error. The library brings no
network client, so the server of hashes is a value inside the process, and what `issue` writes to
it is kept only as long as the process runs.
-/

namespace BearerToken.Main

/-- The variables that settings are read from. -/
def variableNames : List String :=
  Kind.all.map Environment.ttlVariable ++
    [Environment.retentionVariable, Environment.versionVariable, Environment.secretVariable,
     Environment.legacyVariable, Environment.serverVariable, Environment.namespaceVariable,
     Environment.levelVariable]

def readEnvironment : IO Environment := do
  let mut env : Environment := .empty
  for name in variableNames do
    if let some value ← IO.getEnv name then
      env := env.set name (Text.ofString value)
  return env

def readClock : IO Int := do
  let now ← Std.Time.Timestamp.now
  return now.toMillisecondsSinceUnixEpoch.val

def readEntropy : IO Entropy := do
  let bytes ← IO.getRandomBytes 10
  let n := Bytes.toNat bytes.data.toList
  return ⟨n / 2 ^ 64, n % 2 ^ 62⟩

def printLines (lines : List Log.Members) : IO Unit := do
  for members in lines do
    IO.eprintln (Json.write (.object members))

def finish : Command.Ending → IO UInt32
  | .exit code => return code.toUInt32
  | .raised error => do
    IO.eprintln (error.message.toString?.getD error.message.quoted)
    return 1

end BearerToken.Main

open BearerToken in
/-- Runs the command that the arguments ask for. -/
def main (arguments : List String) : IO UInt32 := do
  let setting : Command.Setting :=
    ⟨← Main.readEnvironment, ← Main.readClock, ← Main.readEntropy, .empty⟩
  let outcome := Command.run setting (arguments.map Text.ofString)
  IO.print outcome.output
  Main.printLines outcome.lines
  Main.finish outcome.ending
