import MemberNames.Rdn.AttributeType
import MemberNames.Rdn.Segment
import MemberNames.Rdn.Value

/-!
# Decomposing a text

* `Rdn.ofSegment`: the pair that one segment denotes
* `Rdn.decompose`: the pairs of a text, in the order of the text
-/

namespace MemberNames
namespace Rdn

def ofSegment (segment : Text) : Except Defect Rdn :=
  if Text.isBlank segment then .error .emptyRdn
  else
    match Text.splitFirst '=' segment with
    | none => .error (.noSeparator (Text.trim Unicode.isWhiteSpace segment))
    | some (rawType, rawValue) => do
      let attributeType ← AttributeType.read rawType
      let value ← Value.read rawValue
      return ⟨attributeType, value⟩

def decompose (s : Text) : Except Defect (List Rdn) := do
  (← Segment.cut s).mapM ofSegment

end Rdn
end MemberNames
