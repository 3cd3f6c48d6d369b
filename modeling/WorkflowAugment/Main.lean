import WorkflowAugment.CommandLine.Run

/-!
# The command

Hands the arguments, the environment and the input to `CommandLine.start` and `Job.finish`, and writes out what they
answer: the lines of the log and the error to the standard error, the document to the standard output.
-/

namespace WorkflowAugment

open CommandLine

/-- The variables that a run looks at. -/
def variablesInUse : List String :=
  [tlsVariable, bundlePathVariable, bundleSecretVariable, exitTemplateVariable, logLevelVariable, logFormatVariable,
    noColorVariable]

/-- The variables that a run looks at, as they are set. -/
def readEnvironment : IO (String → Option Octets) := do
  let pairs ← variablesInUse.mapM fun name => return (name, (← IO.getEnv name).map octetsOf)
  return fun name => (pairs.lookup name).bind id

/-- All that a stream still holds, behind what was read before. -/
partial def readAll (stream : IO.FS.Stream) (before : ByteArray) : IO ByteArray := do
  let chunk ← stream.read 65536
  if chunk.isEmpty then return before else readAll stream (before ++ chunk)

/-- What a source holds; nothing if it cannot be read. -/
def readSource (source : Source) : IO (Option Octets) := do
  try
    let bytes ← match source with
      | .standardInput => readAll (← IO.getStdin) .empty
      | .file path => IO.FS.readBinFile (Text.Utf8.decodeLossy path)
    return some bytes.toList
  catch _ => return none

/-- Writes out what a run leaves behind and gives its status. Misuse is answered with the help. -/
def deliver (outcome : Outcome) : IO UInt32 := do
  outcome.log.forM fun line => IO.eprintln line
  outcome.error.forM fun message => IO.eprintln ("Error: " ++ message)
  if outcome.status = 2 then IO.eprint shortHelp
  IO.print outcome.output
  return UInt32.ofNat outcome.status

end WorkflowAugment

open WorkflowAugment CommandLine in
/-- Runs the command. -/
def main (args : List String) : IO UInt32 := do
  match start (args.map octetsOf) (← readEnvironment) with
  | .error outcome => deliver outcome
  | .ok job => deliver (job.finish (← readSource job.source))
