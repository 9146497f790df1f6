import MemberNames.Text.Utf8

/-!
# Cutting octets at offsets

Offsets count octets. Octets are cut only where a character begins or at their end; a cut anywhere
else, or beyond the end, has no result.

* `Utf8.isBoundary`: where octets are cut
* `Utf8.slice?`: what is between two offsets
* `SliceError`, `SliceError.slice`: computations that end at an offset which is no boundary
* `SliceError.lift`: computations that cut nothing
-/

namespace MemberNames
namespace Utf8

/-- Whether an octet goes on with a character that began before it. -/
def isTail (b : UInt8) : Bool :=
  0x80 ≤ b.toNat && b.toNat < 0xC0

/-- Whether an offset is the end of the octets, or one at which a character begins. -/
def isBoundary (octets : Octets) (offset : Nat) : Bool :=
  offset == octets.length || octets[offset]?.any (!isTail ·)

/-- The octets between two offsets, which have to be boundaries in this order. -/
def slice? (octets : Octets) (first last : Nat) : Option Octets :=
  if first ≤ last ∧ isBoundary octets first ∧ isBoundary octets last then
    some ((octets.drop first).take (last - first))
  else none

end Utf8

/-! ## Computations that cut octets -/

/-- What ends a computation that cuts octets: an offset that is no boundary, or another cause. -/
inductive SliceError (ε : Type) where
  | badOffset
  | cause (e : ε)
  deriving DecidableEq, Repr

namespace SliceError

variable {α ε : Type}

def slice (octets : Octets) (first last : Nat) : Except (SliceError ε) Octets :=
  match Utf8.slice? octets first last with
  | none => .error .badOffset
  | some part => .ok part

/-- The outcome of a computation that cuts no octets. -/
def lift (r : Except ε α) : Except (SliceError ε) α :=
  r.mapError .cause

end SliceError
end MemberNames
