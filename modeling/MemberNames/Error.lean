import MemberNames.Attribute
import MemberNames.Der.Element
import MemberNames.Organisation

/-!
# Why a name is refused

* `Defect`: what is wrong with the structure of a text or of a principal
* `NameError`: all reasons for refusing a name, each of them permanent for its input
-/

namespace MemberNames

/-- A structural defect. -/
inductive Defect where
  /-- A `+` outside quotes joins several attributes in one RDN. -/
  | multiValued
  /-- One of `<` and `>` stands outside quotes without an escape. -/
  | unescapedOutsideQuotes (c : Char)
  /-- The text ends after a backslash. -/
  | danglingEscape
  /-- The text ends inside quotes. -/
  | unbalancedQuotes
  | emptyRdn
  | noSeparator (segment : Text)
  | emptyType
  | invalidType (token : Text)
  /-- A quote stands inside a value that does not begin with one. -/
  | strayQuote
  /-- A separator or angle bracket stands in an unquoted value. -/
  | unescapedInValue (c : Char)
  | unterminatedQuotes
  | textAfterQuotes
  /-- The value ends after a backslash. -/
  | danglingValueEscape
  | incompleteHexEscape
  | invalidEscape (c : Char)
  /-- A run of hex escapes is not UTF-8. -/
  | escapesNotUtf8
  | invalidHexValue (digits : Text)
  /-- A pair of hex digits has no octet. -/
  | hexConversion
  /-- The octets of a hex value are no DER element. -/
  | invalidElement (e : Der.Error)
  | valueNotUtf8
  | unsupportedValueType (tag : UInt8)
  deriving DecidableEq, Repr

def Defect.message : Defect → Text
  | .multiValued => "multi-valued RDNs are not supported".toList
  | .unescapedOutsideQuotes c => "unescaped '".toList ++ [c] ++ "' outside quotes".toList
  | .danglingEscape => "name ends with a dangling escape".toList
  | .unbalancedQuotes => "unbalanced quotes".toList
  | .emptyRdn => "empty RDN".toList
  | .noSeparator segment => "RDN \"".toList ++ segment ++ "\" has no '=' separator".toList
  | .emptyType => "empty attribute type".toList
  | .invalidType token => "invalid attribute type \"".toList ++ token ++ ['"']
  | .strayQuote => "unescaped '\"' inside an unquoted value".toList
  | .unescapedInValue c => "unescaped '".toList ++ [c] ++ "' in value".toList
  | .unterminatedQuotes => "unterminated quoted value".toList
  | .textAfterQuotes => "unexpected characters after closing quote".toList
  | .danglingValueEscape => "value ends with a dangling escape".toList
  | .incompleteHexEscape => "incomplete hex escape".toList
  | .invalidEscape c => "invalid escape sequence \\".toList ++ [c]
  | .escapesNotUtf8 => "hex escapes do not form valid UTF-8".toList
  | .invalidHexValue digits => "invalid hex-encoded value \"#".toList ++ digits ++ ['"']
  | .hexConversion => "invalid hex-encoded value: invalid digit found in string".toList
  | .invalidElement e => "invalid BER-encoded value: ".toList ++ e.message
  | .valueNotUtf8 => "attribute value is not valid UTF-8".toList
  | .unsupportedValueType tag => "unsupported attribute value type ".toList ++ Der.Tag.name tag

/-- Why a name is refused. -/
inductive NameError where
  | malformed (defect : Defect)
  | missingAttribute (a : Attribute)
  | duplicateAttribute (a : Attribute)
  | unsupportedAttribute (token : Text)
  | tooLong (a : Attribute) (bound : Nat)
  | blankAttribute (a : Attribute)
  | invalidOrganisation (e : OrganisationError)
  | invalidCountryCode (code : Text)
  | encoding (e : Der.Error)
  deriving DecidableEq, Repr

def NameError.message : NameError → Text
  | .malformed defect => "malformed distinguished name: ".toList ++ defect.message
  | .missingAttribute a => "missing mandatory attribute ".toList ++ a.keyword
  | .duplicateAttribute a => "duplicate attribute ".toList ++ a.keyword
  | .unsupportedAttribute token =>
    "unsupported attribute type \"".toList ++ token ++
      "\" (expected one of CN, OU, O, L, ST, C)".toList
  | .tooLong a bound =>
    "attribute ".toList ++ a.keyword ++ " must contain fewer than ".toList ++
      Text.decimal bound ++ " characters".toList
  | .blankAttribute a =>
    "attribute ".toList ++ a.keyword ++ " must not be blank when present".toList
  | .invalidOrganisation e => "invalid organisation: ".toList ++ e.message
  | .invalidCountryCode code => "invalid country code \"".toList ++ code ++ ['"']
  | .encoding e => "principal encoding error: ".toList ++ e.message

end MemberNames
