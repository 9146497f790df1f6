import MemberNames.Unicode.Range

/-!
# White space

The Unicode property White_Space. It decides what is trimmed around names, attribute types and hex
text, and what counts as blank.
-/

namespace MemberNames
namespace Unicode

/-- The code points with the property White_Space. -/
def whiteSpaceRanges : List (Nat × Nat) := [
  (0x9, 0xD), (0x20, 0x20), (0x85, 0x85), (0xA0, 0xA0), (0x1680, 0x1680), (0x2000, 0x200A),
  (0x2028, 0x2029), (0x202F, 0x202F), (0x205F, 0x205F), (0x3000, 0x3000)
]

/-- Whether the character has the property White_Space. -/
def isWhiteSpace (c : Char) : Bool :=
  covers whiteSpaceRanges c.toNat

end Unicode
end MemberNames
