import MemberNames.Text.Basic

/-!
# Ranges of code points

A class of characters is a list of disjoint ranges in ascending order, both ends included.

* `Unicode.covers`: whether a code point lies in one of the ranges
* `Unicode.isControl`: the general category Cc
-/

namespace MemberNames
namespace Unicode

/-- Whether one of the ascending ranges contains `n`; the search ends at the first range above. -/
def covers : List (Nat × Nat) → Nat → Bool
  | [], _ => false
  | (first, last) :: ranges, n =>
    if n < first then false
    else n ≤ last || covers ranges n

/-- The control characters of category Cc, which Unicode never extends. -/
def isControl (c : Char) : Bool :=
  c.toNat < 0x20 || (0x7F ≤ c.toNat && c.toNat < 0xA0)

end Unicode
end MemberNames
