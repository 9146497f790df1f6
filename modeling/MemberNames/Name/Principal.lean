import MemberNames.Name.Mapping

/-!
# Principals

The principal form of a name is a DER sequence of sets with one attribute each, least significant
first. The country is a PrintableString and every other value a UTF8String.

* `Principal.attribute`, `Principal.structure`: the octets as sets of typed values
* `Principal.rdns`: the attribute pairs of a principal
* `Name.toDer`, `Name.fromDerWith`, `Name.fromDer`: the two directions for names
-/

namespace MemberNames
namespace Principal

open Der

/-! ## Writing -/

/-- The string type in which an attribute is written. -/
def stringTag : Attribute → UInt8
  | .country => Tag.printableString
  | _ => Tag.utf8String

/-- The element that holds elements one after the other. -/
def container (tag : UInt8) (elements : List Element) : Element :=
  ⟨tag, elements.flatMap Element.toOctets⟩

/-- A set with one attribute. -/
def rdnElement (a : Attribute) (v : Text) : Element :=
  container Tag.set [container Tag.sequence [
    ⟨Tag.objectIdentifier, a.oid.toContents⟩, ⟨stringTag a, Utf8.encode v⟩]]

/-! ## Reading -/

/-- A type and a value that is not looked into. -/
structure TypedValue where
  oid : ObjectId
  /-- The octets of the identifier as they were encoded. -/
  oidContents : Octets
  value : Element
  deriving DecidableEq, Repr

/-- The element if it has the tag. -/
def expect (tag : UInt8) (e : Element) : Except Error Element :=
  if e.tag = tag then .ok e else .error (.unexpectedTag e.tag)

/-- Reads an element as a pair of type and value. -/
def typedValue (e : Element) : Except Error TypedValue := do
  let pair ← expect Tag.sequence e
  match ← elements pair.content with
  | [type, value] =>
    let type ← expect Tag.objectIdentifier type
    match ObjectId.ofContents? type.content with
    | none => .error .invalidObjectId
    | some oid => .ok ⟨oid, type.content, value⟩
  | _ => .error .invalidAttribute

/-- Reads an element as a set of typed values, in any order but each at most once. -/
def typedValues (e : Element) : Except Error (List TypedValue) := do
  let set ← expect Tag.set e
  let values ← (← elements set.content).mapM typedValue
  if values.Nodup then .ok values else .error .duplicateElement

/-- The sets of typed values of a principal. -/
def sets (octets : Octets) : Except Error (List (List TypedValue)) := do
  let sequence ← expect Tag.sequence (← Element.ofOctets octets)
  (← elements sequence.content).mapM typedValues

/-- A set as a pair, if it holds one directory string. -/
def rdn : List TypedValue → Except Defect Rdn
  | [] => .error .emptyRdn
  | [v] => (Value.ofElement v.value).map fun text => ⟨v.oid.toDotted, text⟩
  | _ => .error .multiValued

/-- The pairs of a principal. Its structure is read completely before any set is looked into. -/
def rdns (octets : Octets) : Except NameError (List Rdn) := do
  let sets ← (sets octets).mapError .encoding
  (sets.mapM rdn).mapError .malformed

end Principal

namespace Name

/-- The principal form, least significant attribute first. It only fails for want of length. -/
def toDer (n : Name) : Except NameError Octets :=
  let rdns := n.attributes.reverse.map fun (a, v) => Principal.rdnElement a v
  let octets := (Principal.container Der.Tag.sequence rdns).toOctets
  if octets.length ≤ Der.maxLength then .ok octets else .error (.encoding .tooLong)

/-- Reads the principal form of a name. -/
def fromDerWith (octets : Octets) (rules : Rules) : Except NameError Name := do
  ofRdns (← Principal.rdns octets) rules

/-- Reads the principal form of a name under the standard rules. -/
def fromDer (octets : Octets) : Except NameError Name :=
  fromDerWith octets .standard

end Name
end MemberNames
