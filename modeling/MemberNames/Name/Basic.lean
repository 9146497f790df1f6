import MemberNames.Rules.Basic
import MemberNames.Text.Escape

/-!
# Names

A name is its six fields. Names are equal exactly if they agree in each of them; an absent field
differs from every present one.

* `Name`: the fields
* `Name.withRules`: a name from its fields, provided that it satisfies the rules
* `Name.canonical`: the canonical text of a name
-/

namespace MemberNames

/-- The name of a member. -/
structure Name where
  commonName : Option Text
  organisationUnit : Option Text
  organisation : Text
  locality : Text
  state : Option Text
  country : Text
  deriving DecidableEq, Repr

namespace Name

/-! ## Fields by attribute -/

def get? (n : Name) : Attribute → Option Text
  | .commonName => n.commonName
  | .organisationUnit => n.organisationUnit
  | .organisation => some n.organisation
  | .locality => some n.locality
  | .state => n.state
  | .country => some n.country

/-- The present attributes, most specific first. -/
def attributes (n : Name) : List (Attribute × Text) :=
  Attribute.all.filterMap fun a => (n.get? a).map fun v => (a, v)

/-! ## Validation -/

/-- Refuses a present value that reaches the bound of its attribute. -/
def checkLength (n : Name) (a : Attribute) : Except NameError Unit :=
  match a.lengthBound?, n.get? a with
  | some bound, some v => if bound ≤ v.length then .error (.tooLong a bound) else .ok ()
  | _, _ => .ok ()

/-- The attributes in the order in which their lengths are checked. -/
def lengthOrder : List Attribute :=
  [.organisation, .locality, .state, .organisationUnit, .commonName]

/-- The checks in order: organisation policy, country, lengths, blank state. -/
def validate (n : Name) (rules : Rules) : Except NameError Unit := do
  (rules.organisationPolicy n.organisation).mapError .invalidOrganisation
  if !rules.countries.contains n.country then
    .error (.invalidCountryCode n.country)
  else do
    lengthOrder.forM n.checkLength
    if n.state.any (·.all Unicode.isWhiteSpace) then .error (.blankAttribute .state) else .ok ()

/-- The name with the given fields, if it satisfies the rules. -/
def withRules (fields : Name) (rules : Rules) : Except NameError Name :=
  (fields.validate rules).map fun _ => fields

/-- The fields of a name without optional attributes. -/
def minimal (organisation locality country : Text) : Name :=
  ⟨none, none, organisation, locality, none, country⟩

/-- The fields of the name of a service. -/
def service (commonName organisation locality country : Text) : Name :=
  ⟨some commonName, none, organisation, locality, none, country⟩

/-! ## Canonical text -/

/-- The present attributes, most specific first, each as keyword and written value. -/
def canonical (n : Name) : Text :=
  [',', ' '].intercalate (n.attributes.map fun (a, v) => a.keyword ++ '=' :: Escape.value v)

/-! ## Field listing -/

/-- A field that may be absent. -/
def optionalField : Option Text → Text
  | none => "None".toList
  | some v => "Some(".toList ++ Quoted.text v ++ [')']

/-- All fields on one line, for log output. -/
def listing (n : Name) : Text :=
  "DistinguishedName \x7b common_name: ".toList ++ optionalField n.commonName ++
    ", organisation_unit: ".toList ++ optionalField n.organisationUnit ++
    ", organisation: ".toList ++ Quoted.text n.organisation ++
    ", locality: ".toList ++ Quoted.text n.locality ++
    ", state: ".toList ++ optionalField n.state ++
    ", country: ".toList ++ Quoted.text n.country ++ " \x7d".toList

end Name
end MemberNames
