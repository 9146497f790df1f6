import MemberNames.Report

/-!
# Commands on single inputs

* `Command.normalize`: the canonical texts of names
* `Command.encode`: the principal form of a name in hex
* `Command.decode`: the canonical text of a principal in hex
-/

namespace MemberNames

/-- What a command writes, and its exit code. -/
structure Outcome where
  output : Output
  code : Nat
  deriving DecidableEq, Repr

namespace Command

/-- Writes the reports of a command. -/
def outcome (format : Format) (text : Report → Text) (rs : List Report) : Outcome :=
  ⟨.concat (rs.map (Report.print format text)), Report.exitCode rs⟩

/-! ## Normalize -/

def normalizeText (r : Report) : Text :=
  match r.verdict with
  | .accepted n _ => n.canonical
  | .rejected reason => "error: ".toList ++ r.input ++ ": ".toList ++ reason

def normalize (names : List Text) (rules : Rules) (format : Format) : Outcome :=
  outcome format normalizeText
    (names.map fun name => Report.ofResult name (Name.parseWith name rules))

/-! ## Encode -/

def encodeText (r : Report) : Text :=
  match r.verdict with
  | .accepted _ der => der.getD []
  | .rejected reason => "error: ".toList ++ reason

/-- The report on a name that is to be encoded. -/
def encodeReport (name : Text) (rules : Rules) : Report :=
  match Name.parseWith name rules with
  | .error e => ⟨name, .rejected e.message⟩
  | .ok n =>
    match n.toDer with
    | .error e => ⟨name, .rejected e.message⟩
    | .ok der => ⟨name, .accepted n (some (Hex.encode der))⟩

def encode (name : Text) (rules : Rules) (format : Format) : Outcome :=
  outcome format encodeText [encodeReport name rules]

/-! ## Decode -/

def decodeText (r : Report) : Text :=
  match r.verdict with
  | .accepted n _ => n.canonical
  | .rejected reason => "error: ".toList ++ reason

/-- The report on hex that is to be decoded. -/
def decodeReport (hex : Text) (rules : Rules) : Report :=
  match Hex.read hex with
  | .error e => ⟨hex, .rejected e.message⟩
  | .ok octets => Report.ofResult hex (Name.fromDerWith octets rules)

def decode (hex : Text) (rules : Rules) (format : Format) : Outcome :=
  outcome format decodeText [decodeReport hex rules]

end Command
end MemberNames
