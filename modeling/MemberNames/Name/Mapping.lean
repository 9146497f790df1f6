import MemberNames.Name.Basic
import MemberNames.Rdn.Decompose

/-!
# Names from attribute pairs

Pairs are mapped to fields by their attribute, never by position. Unsupported and repeated types
are reported in the order of the pairs, before a missing attribute; the fields are validated last.

* `Name.assign`: the fields that pairs determine
* `Name.ofRdns`: the name that pairs denote
* `Name.parseWith`, `Name.parse`: the name that a text denotes
-/

namespace MemberNames

/-- The values assigned to attributes so far. -/
abbrev Assignment := Attribute → Option Text

namespace Assignment

def empty : Assignment :=
  fun _ => none

def set (fields : Assignment) (a : Attribute) (v : Text) : Assignment :=
  fun b => if b = a then some v else fields b

/-- Adds pairs to an assignment. -/
def addAll (fields : Assignment) : List Rdn → Except NameError Assignment
  | [] => .ok fields
  | rdn :: rdns =>
    match Attribute.ofToken? rdn.attributeType with
    | none => .error (.unsupportedAttribute rdn.attributeType)
    | some a =>
      if (fields a).isSome then .error (.duplicateAttribute a)
      else addAll (fields.set a rdn.value) rdns

/-- The value of an attribute that every name has. -/
def required (fields : Assignment) (a : Attribute) : Except NameError Text :=
  match fields a with
  | none => .error (.missingAttribute a)
  | some v => .ok v

/-- The fields of a name, of which organisation, locality and country have to be there. -/
def toFields (fields : Assignment) : Except NameError Name := do
  let organisation ← fields.required .organisation
  let locality ← fields.required .locality
  let country ← fields.required .country
  return {
    commonName := fields .commonName
    organisationUnit := fields .organisationUnit
    organisation, locality
    state := fields .state
    country
  }

end Assignment

namespace Name

def ofRdns (rdns : List Rdn) (rules : Rules) : Except NameError Name := do
  let fields ← Assignment.empty.addAll rdns
  let fields ← fields.toFields
  fields.withRules rules

/-- Reads the text form of a name. -/
def parseWith (s : Text) (rules : Rules) : Except NameError Name := do
  let rdns ← (Rdn.decompose s).mapError .malformed
  ofRdns rdns rules

/-- Reads the text form of a name under the standard rules. -/
def parse (s : Text) : Except NameError Name :=
  parseWith s .standard

end Name
end MemberNames
