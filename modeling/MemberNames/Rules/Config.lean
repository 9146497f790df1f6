import MemberNames.Json
import MemberNames.Rules.Basic
import MemberNames.Yaml.Content

/-!
# Configured rules

A deployment chooses one of the built-in organisation policies and adds country codes. The choice
is read from a JSON value or from a YAML document with two optional keys.

* `RulesConfig.ofJson?`, `RulesConfig.ofYaml?`: reading a configuration
* `RulesConfig.intoRules`: the rules of a configuration, if its country codes are well-formed
* `Rules.load`: the rules of a configuration file
-/

namespace MemberNames

/-- The built-in organisation policies. -/
inductive PolicyChoice where
  | legalName
  | permissive
  deriving DecidableEq, Repr

namespace PolicyChoice

def name : PolicyChoice → Text
  | .legalName => "legal_name".toList
  | .permissive => "permissive".toList

def ofName? (s : Text) : Option PolicyChoice :=
  [legalName, permissive].find? fun choice => choice.name = s

def policy : PolicyChoice → OrganisationPolicy
  | .legalName => OrganisationPolicy.legalName
  | .permissive => OrganisationPolicy.permissive

end PolicyChoice

/-- A rules configuration. -/
structure RulesConfig where
  policy : PolicyChoice
  extraCountryCodes : List Text
  deriving DecidableEq, Repr

/-- Why a configuration has no rules. -/
inductive RulesConfigError where
  | invalidExtraCountryCode (code : Text)
  deriving DecidableEq, Repr

def RulesConfigError.message : RulesConfigError → Text
  | .invalidExtraCountryCode code =>
    "extra country code \"".toList ++ code ++
      "\" must be two upper-case ASCII letters".toList

namespace RulesConfig

/-- The configuration in which nothing is chosen. -/
def standard : RulesConfig :=
  ⟨.legalName, []⟩

/-! ## Rules -/

/-- Two octets long, and upper-case ASCII letters only. -/
def isWellFormedCode (code : Text) : Bool :=
  Utf8.size code = 2 && code.all Char.isUpper

/-- The rules of a configuration; an ill-formed country code is reported at its first place. -/
def intoRules (config : RulesConfig) : Except RulesConfigError Rules :=
  match config.extraCountryCodes.find? (!isWellFormedCode ·) with
  | some code => .error (.invalidExtraCountryCode code)
  | none => .ok ⟨.withAdditional config.extraCountryCodes, config.policy.policy⟩

/-! ## Reading -/

def policyKey : Text :=
  "organisation_policy".toList

def codesKey : Text :=
  "extra_country_codes".toList

/-- A configuration that is being read; every key may be given once. -/
structure Draft where
  policy : Option PolicyChoice
  codes : Option (List Text)

def Draft.finish (draft : Draft) : RulesConfig :=
  ⟨draft.policy.getD .legalName, draft.codes.getD []⟩

section

variable {α : Type} (readPolicy : α → Option PolicyChoice) (readCodes : α → Option (List Text))

/-- Reads keys and values into a draft; unknown and repeated keys are refused. -/
def readFields (draft : Draft) : List (Text × α) → Option Draft
  | [] => some draft
  | (key, value) :: fields =>
    if key = policyKey && draft.policy.isNone then do
      let policy ← readPolicy value
      readFields { draft with policy := some policy } fields
    else if key = codesKey && draft.codes.isNone then do
      let codes ← readCodes value
      readFields { draft with codes := some codes } fields
    else none

end

def jsonText? : Json → Option Text
  | .text s => some s
  | _ => none

/-- A choice is a name, or an object with the name as its one key and nothing behind it. -/
def jsonPolicy? : Json → Option PolicyChoice
  | .text s => PolicyChoice.ofName? s
  | .object [(s, .null)] => PolicyChoice.ofName? s
  | _ => none

def jsonCodes? : Json → Option (List Text)
  | .list items => items.mapM jsonText?
  | _ => none

/-- Reads an object by its keys or a list by position. -/
def ofJson? : Json → Option RulesConfig
  | .object fields => (readFields jsonPolicy? jsonCodes? ⟨none, none⟩ fields).map Draft.finish
  | .list [] => some standard
  | .list [policy] => do
    let policy ← jsonPolicy? policy
    return ⟨policy, []⟩
  | .list [policy, codes] => do
    let policy ← jsonPolicy? policy
    let codes ← jsonCodes? codes
    return ⟨policy, codes⟩
  | _ => none

def toJson (config : RulesConfig) : Json :=
  .object [(policyKey, .text config.policy.name),
    (codesKey, .list (config.extraCountryCodes.map .text))]

/-- Nothing and the spellings of null. -/
def isNull (s : Text) : Bool :=
  ["", "~", "null", "Null", "NULL"].any fun null => null.toList = s

section

variable (document : Yaml.Node)

/-- Scalars count as text, whatever they look like. -/
def yamlText? (node : Yaml.Node) : Option Text :=
  match document.resolve? node with
  | some (.scalar _ _ s) => some s
  | _ => none

/-- A choice is a name, or a local tag with the name in front of nothing or of a null. -/
def yamlPolicy? (node : Yaml.Node) : Option PolicyChoice :=
  match document.resolve? node with
  | some (.scalar props plain s) =>
    match props.localName? with
    | none => PolicyChoice.ofName? s
    | some name => if plain && isNull s then PolicyChoice.ofName? name else none
  | _ => none

/-- The absent node counts as an empty list. -/
def yamlCodes? (node : Yaml.Node) : Option (List Text) :=
  match document.resolve? node with
  | some (.list _ items) => items.mapM (yamlText? document)
  | some (.scalar _ true []) => some []
  | _ => none

end

/-- Reads a map by its keys. The absent node counts as an empty map. -/
def ofYaml? (document : Yaml.Node) : Option RulesConfig :=
  match document with
  | .map _ entries => do
    let fields ← entries.mapM fun (key, value) => do
      let key ← yamlText? document key
      return (key, value)
    (readFields (yamlPolicy? document) (yamlCodes? document) ⟨none, none⟩ fields).map Draft.finish
  | .scalar _ true [] => some standard
  | _ => none

end RulesConfig

/-! ## Configuration files -/

/-- Why a configuration file has no rules. -/
inductive ConfigError where
  | unreadable
  | invalidDocument
  | invalidConfig (e : RulesConfigError)
  deriving DecidableEq, Repr

def ConfigError.message : ConfigError → Text
  | .unreadable => "failed to read rules config".toList
  | .invalidDocument => "failed to parse rules config".toList
  | .invalidConfig e => "invalid rules config: ".toList ++ e.message

/-- The configuration that a file holds, of which there is no content if it cannot be read. A
blank file chooses nothing. -/
def RulesConfig.load (content : Option Octets) : Except ConfigError RulesConfig :=
  match content.bind Utf8.decode? with
  | none => .error .unreadable
  | some s =>
    if s.all Unicode.isWhiteSpace then .ok .standard
    else
      match (Yaml.document? s).bind RulesConfig.ofYaml? with
      | none => .error .invalidDocument
      | some config => .ok config

/-- The rules of a configuration file. -/
def Rules.load (content : Option Octets) : Except ConfigError Rules := do
  (← RulesConfig.load content).intoRules.mapError .invalidConfig

end MemberNames
