import MemberNames.Command.Arguments
import MemberNames.Command.Check
import MemberNames.Rules.Config

/-!
# Running a command

* `Command.run`: what a command writes and how it ends, given its rules and its input
* `Command.runConfigured`: the same with the rules read from a configuration file, if one is given
-/

namespace MemberNames
namespace Command

def ofOutcome (o : Outcome) : Batch :=
  ⟨o.output, .finished o.code⟩

def run (command : Arguments.Command) (rules : Rules) (format : Format) (input : Octets) : Batch :=
  match command with
  | .normalize names => ofOutcome (normalize names rules format)
  | .check quiet => check quiet rules format input
  | .encode name => ofOutcome (encode name rules format)
  | .decode hex => ofOutcome (decode hex rules format)

def format (invocation : Arguments.Invocation) : Format :=
  if invocation.json then .json else .text

/-- Runs a command under the rules of a configuration file, or under the standard rules if none is
given. The file may lack content, and its rules may be invalid. -/
def runConfigured (invocation : Arguments.Invocation) (content : Option (Option Octets))
    (input : Octets) : Except ConfigError Batch := do
  let rules ←
    match content with
    | none => .ok .standard
    | some content => Rules.load content
  return run invocation.command rules (format invocation) input

/-- The exit code of a program that ran into an operational error. -/
def failureCode : Nat := 2

def Batch.exitCode (b : Batch) : Nat :=
  match b.ending with
  | .finished code => code
  | .unreadable _ => failureCode

end Command
end MemberNames
