import MemberNames.Command.Convert

/-!
# Checking a batch of names

The input holds one name on each line. Blank lines are skipped but counted. A line that is not
UTF-8 ends the batch.

* `Lines.split`: the lines of an octet string
* `Command.checkLines`: the numbered reports on lines, up to one that cannot be read
* `Command.check`: the command
-/

namespace MemberNames

/-! ## Lines -/

namespace Lines

def newline : UInt8 := 0x0A
def carriageReturn : UInt8 := 0x0D

/-- A line, given backwards, without the carriage return in front of its newline. -/
def dropReturn : Octets → Octets
  | [] => []
  | b :: line => if b = carriageReturn then line else b :: line

/-- The lines of the octets, the first of which begins with `line` backwards. -/
def splitFrom (line : Octets) : Octets → List Octets
  | [] => if line.isEmpty then [] else [line.reverse]
  | b :: s =>
    if b = newline then (dropReturn line).reverse :: splitFrom [] s else splitFrom (b :: line) s

/-- The lines of the octets without their ends; the last one needs no end. -/
def split (s : Octets) : List Octets :=
  splitFrom [] s

end Lines

namespace Command

/-- A report with the number of its line. -/
structure LineReport where
  number : Nat
  report : Report
  deriving DecidableEq, Repr

/-- How a batch ends. -/
inductive Ending where
  | finished (code : Nat)
  | unreadable (line : Nat)
  deriving DecidableEq, Repr

def Ending.message : Ending → Option Text
  | .finished _ => none
  | .unreadable line => some ("failed to read input line ".toList ++ Text.decimal line)

/-- What a batch writes, and how it ends. -/
structure Batch where
  output : Output
  ending : Ending
  deriving DecidableEq, Repr

/-- The reports on lines, the first of which is line `number`, and the number of the line that
cannot be read, if there is one. -/
def checkLines (rules : Rules) (number : Nat) : List Octets → List LineReport × Option Nat
  | [] => ([], none)
  | line :: lines =>
    match Utf8.decode? line with
    | none => ([], some number)
    | some s =>
      let (reports, stop) := checkLines rules (number + 1) lines
      if Text.isBlank s then (reports, stop)
      else (⟨number, Report.ofResult s (Name.parseWith s rules)⟩ :: reports, stop)

def checkText (number : Nat) (r : Report) : Text :=
  match r.verdict with
  | .accepted n _ => "ok\t".toList ++ n.canonical
  | .rejected reason =>
    "error\tline ".toList ++ Text.decimal number ++ '\t' :: (r.input ++ '\t' :: reason)

def LineReport.print (format : Format) (r : LineReport) : Output :=
  r.report.print format (checkText r.number)

/-- Checks the lines of the input; with `quiet`, only rejected ones are written. -/
def check (quiet : Bool) (rules : Rules) (format : Format) (input : Octets) : Batch :=
  let (reports, stop) := checkLines rules 1 (Lines.split input)
  let shown := reports.filter fun r => !(quiet && r.report.isAccepted)
  let ending :=
    match stop with
    | some line => .unreadable line
    | none => .finished (Report.exitCode (reports.map LineReport.report))
  ⟨.concat (shown.map (LineReport.print format)), ending⟩

end Command
end MemberNames
