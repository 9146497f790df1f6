/-!
# Text and octets

Text is a list of characters and binary data a list of octets, so that every scanner and printer
of the library recurses on its input.

* `Text.trim`: trimming by a class of characters
* `Text.splitOn`, `Text.splitFirst`: cutting at a separator
* `Text.lower`, `Text.upper`, `Text.sameIgnoringCase`: ASCII letter case
* `Text.decimal`: the decimal numeral of a natural number
-/

namespace MemberNames

/-- Text as the list of its characters. -/
abbrev Text := List Char

/-- Binary data as the list of its octets. -/
abbrev Octets := List UInt8

namespace Text

/-! ## Trimming -/

def trimStart (p : Char → Bool) (s : Text) : Text :=
  s.dropWhile p

def trimEnd (p : Char → Bool) (s : Text) : Text :=
  (s.reverse.dropWhile p).reverse

def trim (p : Char → Bool) (s : Text) : Text :=
  trimEnd p (trimStart p s)

/-! ## Cutting -/

/-- The pieces between the occurrences of `sep`, of which there is always at least one. -/
def splitOn (sep : Char) : Text → List Text
  | [] => [[]]
  | c :: s =>
    if c = sep then [] :: splitOn sep s
    else
      match splitOn sep s with
      | [] => [[c]]
      | w :: ws => (c :: w) :: ws

/-- What stands before and after the first occurrence of `sep`. -/
def splitFirst (sep : Char) : Text → Option (Text × Text)
  | [] => none
  | c :: s =>
    if c = sep then some ([], s)
    else (splitFirst sep s).map fun (before, after) => (c :: before, after)

/-! ## Letter case and numerals -/

/-- ASCII letters in lower case; every other character as it is. -/
def lower (s : Text) : Text :=
  s.map Char.toLower

/-- ASCII letters in upper case; every other character as it is. -/
def upper (s : Text) : Text :=
  s.map Char.toUpper

/-- Equality up to the case of ASCII letters. -/
def sameIgnoringCase (s t : Text) : Bool :=
  lower s == lower t

def decimal (n : Nat) : Text :=
  Nat.toDigits 10 n

end Text
end MemberNames
