import MemberNames.Text.Quoted
import MemberNames.Unicode.Alphabetic
import MemberNames.Unicode.WhiteSpace

/-!
# Organisation policies

The organisation is the legal name of a member and is held to a policy of its own. A policy passes
or refuses a value; the rest of the library asks for nothing else.

* `OrganisationError`: why a policy refuses a value
* `OrganisationPolicy.legalName`: the policy for legal names in Latin script
* `OrganisationPolicy.permissive`: the policy that passes everything
-/

namespace MemberNames

/-- Why an organisation is refused. -/
inductive OrganisationError where
  | tooFewLetters
  | controlCharacter (c : Char)
  | surroundingWhiteSpace
  | doubleSpacing
  | nonLatinLetter (c : Char)
  | other (reason : Text)
  deriving DecidableEq, Repr

namespace OrganisationError

/-- A code point in upper-case hex with at least four digits. -/
def codePoint (c : Char) : Text :=
  let digits := Text.upper (Nat.toDigits 16 c.toNat)
  List.replicate (4 - digits.length) '0' ++ digits

def message : OrganisationError → Text
  | .tooFewLetters => "organisation must contain at least two letters".toList
  | .controlCharacter c =>
    "organisation must not contain control characters (found U+".toList ++ codePoint c ++ [')']
  | .surroundingWhiteSpace =>
    "organisation must not have leading or trailing whitespace".toList
  | .doubleSpacing => "organisation must not contain double spaces".toList
  | .nonLatinLetter c =>
    "organisation must only use Latin letters (found ".toList ++ Quoted.character c ++ [')']
  | .other reason => reason

end OrganisationError

/-- A test that an organisation has to pass. -/
abbrev OrganisationPolicy := Text → Except OrganisationError Unit

namespace OrganisationPolicy

/-! ## Legal names -/

/-- The blocks whose letters count as Latin. -/
def latinRanges : List (Nat × Nat) := [
  (0x41, 0x5A), (0x61, 0x7A), (0xAA, 0xAA), (0xBA, 0xBA), (0xC0, 0xD6), (0xD8, 0xF6),
  (0xF8, 0x2AF), (0x1D00, 0x1D7F), (0x1E00, 0x1EFF), (0x2C60, 0x2C7F), (0xA720, 0xA7FF),
  (0xAB30, 0xAB6F), (0xFF21, 0xFF3A), (0xFF41, 0xFF5A)
]

def isLatinLetter (c : Char) : Bool :=
  Unicode.covers latinRanges c.toNat

/-- Whether two adjacent characters are both spaces. -/
def hasDoubleSpace : Text → Bool
  | a :: b :: s => (a = ' ' && b = ' ') || hasDoubleSpace (b :: s)
  | _ => false

def hasSurroundingWhiteSpace (value : Text) : Bool :=
  value.head?.any Unicode.isWhiteSpace || value.getLast?.any Unicode.isWhiteSpace

/-- Refuses, in this order: control characters, surrounding white space, double spaces, letters
outside the Latin blocks, fewer than two letters. -/
def legalName : OrganisationPolicy := fun value =>
  match value.find? Unicode.isControl with
  | some c => .error (.controlCharacter c)
  | none =>
    if hasSurroundingWhiteSpace value then .error .surroundingWhiteSpace
    else if hasDoubleSpace value then .error .doubleSpacing
    else
      match value.find? (fun c => Unicode.isAlphabetic c && !isLatinLetter c) with
      | some c => .error (.nonLatinLetter c)
      | none =>
        if value.countP Unicode.isAlphabetic < 2 then .error .tooFewLetters else .ok ()

/-! ## Other policies -/

/-- Passes every value, for deployments that vet legal names elsewhere. -/
def permissive : OrganisationPolicy := fun _ =>
  .ok ()

/-- Refuses every value for the reason given. -/
def refusing (reason : Text) : OrganisationPolicy := fun _ =>
  .error (.other reason)

end OrganisationPolicy
end MemberNames
