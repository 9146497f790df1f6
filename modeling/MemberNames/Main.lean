import MemberNames.Command.Run

/-!
# The command-line program
-/

open MemberNames

/-- The content of a file, if it can be read. -/
def readOctets (path : Text) : IO (Option Octets) := do
  try
    let content ← IO.FS.readBinFile (String.ofList path)
    return some content.toList
  catch _ => return none

/-- Runs the program. Standard input is read for a batch only. -/
def main (args : List String) : IO UInt32 := do
  match Arguments.parse (args.map String.toList) with
  | .version =>
    IO.print (String.ofList Arguments.versionLine)
    return 0
  | .help =>
    IO.print (String.ofList Arguments.helpText)
    return 0
  | .usageError =>
    IO.eprint (String.ofList Arguments.helpText)
    return 2
  | .run invocation =>
    let content ← invocation.config.mapM readOctets
    let input ←
      match invocation.command with
      | .check _ => do
        let octets ← (← IO.getStdin).readBinToEnd
        pure octets.toList
      | _ => pure []
    match Command.runConfigured invocation content input with
    | .error e =>
      IO.eprintln (String.ofList e.message)
      return UInt32.ofNat Command.failureCode
    | .ok batch =>
      IO.print (String.ofList batch.output.out)
      IO.eprint (String.ofList batch.output.err)
      if let some message := batch.ending.message then
        IO.eprintln (String.ofList message)
      return UInt32.ofNat (Command.Batch.exitCode batch)
