import MemberNames.Json
import MemberNames.Name.Principal

/-!
# Reports

Every input of a command gets one report, written as a line of text or as a JSON object on a line
of its own. Text about accepted inputs and text about rejected ones go to different streams.

* `Report`: an input and what became of it
* `Report.toJson`: the report as a JSON object
* `Report.print`: the report in either format
-/

namespace MemberNames

/-- How reports are written. -/
inductive Format where
  | text
  | json
  deriving DecidableEq, Repr

/-- What a command writes. -/
structure Output where
  out : Text
  err : Text
  deriving DecidableEq, Repr

namespace Output

def empty : Output :=
  ⟨[], []⟩

/-- Several outputs, one after the other. -/
def concat (os : List Output) : Output :=
  ⟨os.flatMap out, os.flatMap err⟩

end Output

/-- What became of an input. -/
inductive Verdict where
  /-- A name, with its principal form in hex if the command asks for it. -/
  | accepted (n : Name) (der : Option Text)
  | rejected (reason : Text)
  deriving DecidableEq, Repr

/-- An input and what became of it. -/
structure Report where
  input : Text
  verdict : Verdict
  deriving DecidableEq, Repr

namespace Report

def ofResult (input : Text) : Except NameError Name → Report
  | .ok n => ⟨input, .accepted n none⟩
  | .error e => ⟨input, .rejected e.message⟩

def isAccepted (r : Report) : Bool :=
  match r.verdict with
  | .accepted _ _ => true
  | .rejected _ => false

/-! ## JSON -/

/-- The key of a field in a report. -/
def fieldKey : Attribute → Text
  | .commonName => "common_name".toList
  | .organisationUnit => "organisation_unit".toList
  | .organisation => "organisation".toList
  | .locality => "locality".toList
  | .state => "state".toList
  | .country => "country".toList

/-- The texts of a report by key: the input, then what is known of the name or the reason. -/
def fields (r : Report) : List (Text × Text) :=
  ("input".toList, r.input) ::
    match r.verdict with
    | .accepted n der =>
      ("canonical".toList, n.canonical) ::
        ((der.map fun hex => ("der".toList, hex)).toList ++
          n.attributes.map fun (a, v) => (fieldKey a, v))
    | .rejected reason => [("error".toList, reason)]

def toJson (r : Report) : Json :=
  .object (r.fields.map fun (key, value) => (key, .text value))

/-! ## Output -/

/-- Writes a report: JSON goes to `out`, and text to `out` or `err` by verdict. -/
def print (format : Format) (text : Report → Text) (r : Report) : Output :=
  match format with
  | .json => ⟨r.toJson.render ++ ['\n'], []⟩
  | .text =>
    if r.isAccepted then ⟨text r ++ ['\n'], []⟩ else ⟨[], text r ++ ['\n']⟩

/-- The exit code for a batch: 1 if an input was rejected. -/
def exitCode (rs : List Report) : Nat :=
  if rs.all isAccepted then 0 else 1

end Report
end MemberNames
