import MemberNames.Error
import MemberNames.Text.Escape

/-!
# Relative distinguished names

A name is a list of attribute-type and value pairs. The type is kept as text here; whether it is a
supported one is not decided before the pairs are mapped to attributes.
-/

namespace MemberNames

/-- One pair of attribute type and value. -/
structure Rdn where
  /-- An upper-case keyword, or a dotted identifier as it was written. -/
  attributeType : Text
  value : Text
  deriving DecidableEq, Repr

namespace Text

/-- Whether a text is empty or Unicode white space only. -/
def isBlank (s : Text) : Bool :=
  s.all Unicode.isWhiteSpace

end Text
end MemberNames
