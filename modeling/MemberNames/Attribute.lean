import MemberNames.ObjectId

/-!
# Attributes of a name

The six attribute types a member's name may carry, with the keyword and the object identifier that
denote each of them and the constraints on its value.

* `Attribute`: the types, declared most specific first
* `Attribute.ofToken?`: the attribute that a keyword or a dotted identifier denotes
-/

namespace MemberNames

/-- An attribute type, most specific first. -/
inductive Attribute where
  | commonName
  | organisationUnit
  | organisation
  | locality
  | state
  | country
  deriving DecidableEq, Repr

namespace Attribute

/-- All attributes in canonical order. -/
def all : List Attribute :=
  [.commonName, .organisationUnit, .organisation, .locality, .state, .country]

def keyword : Attribute → Text
  | .commonName => ['C', 'N']
  | .organisationUnit => ['O', 'U']
  | .organisation => ['O']
  | .locality => ['L']
  | .state => ['S', 'T']
  | .country => ['C']

/-- The last arc of the identifier; the others are common to all six. -/
def lastArc : Attribute → Nat
  | .commonName => 3
  | .organisationUnit => 11
  | .organisation => 10
  | .locality => 7
  | .state => 8
  | .country => 6

def oid (a : Attribute) : ObjectId :=
  ⟨[2, 5, 4, a.lastArc]⟩

/-- The length that a value has to stay below, in characters. -/
def lengthBound? : Attribute → Option Nat
  | .organisation => some 128
  | .commonName | .organisationUnit | .locality | .state => some 64
  | .country => none

def isMandatory : Attribute → Bool
  | .organisation | .locality | .country => true
  | .commonName | .organisationUnit | .state => false

/-! ## Tokens -/

/-- The token without a leading `OID.` in any letter case. -/
def withoutOidLabel (token : Text) : Text :=
  match token with
  | o :: i :: d :: dot :: rest =>
    if Text.sameIgnoringCase [o, i, d, dot] ['O', 'I', 'D', '.'] then rest else token
  | _ => token

def ofOid? (oid : ObjectId) : Option Attribute :=
  all.find? fun a => a.oid = oid

def ofKeyword? (token : Text) : Option Attribute :=
  all.find? fun a => Text.sameIgnoringCase a.keyword token

/-- A token that starts with a digit, after an optional `OID.`, is a dotted identifier; any other
is a keyword as a whole. -/
def ofToken? (token : Text) : Option Attribute :=
  match withoutOidLabel token with
  | [] => ofKeyword? token
  | c :: dotted =>
    if c.isDigit then (ObjectId.ofDotted? (c :: dotted)).bind ofOid? else ofKeyword? token

end Attribute
end MemberNames
