import MemberNames.Rdn.Basic
import MemberNames.Text.Slice

/-!
# Attribute types in text

An attribute type is a keyword of letters, digits and hyphens, or a dotted identifier with an
optional `OID.` in front.

* `AttributeType.read`: the type that a token denotes, in upper case or without its label
* `Attribute.withoutLabelOctets`: the octets of a token without its label
-/

namespace MemberNames

/-! ## Labels in octets -/

namespace Attribute

/-- The octet of a letter in lower case; every other octet as it is. -/
def lowerOctet (b : UInt8) : UInt8 :=
  if 0x41 ≤ b.toNat ∧ b.toNat ≤ 0x5A then UInt8.ofNat (b.toNat + 0x20) else b

/-- The token without its first four octets if these are a label. -/
def withoutLabelOctets (token : Octets) : Except (SliceError Defect) Octets :=
  match Utf8.slice? token 0 4 with
  | some label =>
    if label.map lowerOctet = (Utf8.encode ['O', 'I', 'D', '.']).map lowerOctet then
      SliceError.slice token 4 token.length
    else .ok token
  | none => .ok token

end Attribute

/-! ## Types -/

namespace AttributeType

def isDotted (token : Text) : Bool :=
  (Text.splitOn '.' token).all fun arc => !arc.isEmpty && arc.all Char.isDigit

def isKeyword : Text → Bool
  | [] => false
  | c :: s => c.isAlpha && s.all fun d => d.isAlphanum || d = '-'

def read (raw : Text) : Except Defect Text :=
  let token := Text.trim Unicode.isWhiteSpace raw
  let dotted := Attribute.withoutOidLabel token
  if token.isEmpty then .error .emptyType
  else if isDotted dotted then .ok dotted
  else if isKeyword token then .ok (Text.upper token)
  else .error (.invalidType token)

end AttributeType
end MemberNames
