import MemberNames.Unicode.GraphemeExtend
import MemberNames.Unicode.Unprintable

/-!
# Quoted text for messages

Characters and texts in the form in which a message or a log line shows them: what would not show
is written as an escape, by name where there is one and by code point otherwise.

* `Quoted.character`: a character between single quotes
* `Quoted.text`: a text between double quotes
-/

namespace MemberNames
namespace Quoted

/-- The escape by code point, in lower-case hex without padding. -/
def codeEscape (c : Char) : Text :=
  "\\u\x7b".toList ++ Nat.toDigits 16 c.toNat ++ ['\x7d']

/-- One character inside the quotes `quote`. -/
def inside (quote c : Char) : Text :=
  if c = '\x00' then ['\\', '0']
  else if c = '\t' then ['\\', 't']
  else if c = '\n' then ['\\', 'n']
  else if c = '\r' then ['\\', 'r']
  else if c = '\\' || c = quote then ['\\', c]
  else if Unicode.isJoiningMark c || Unicode.isUnprintable c then codeEscape c
  else [c]

def character (c : Char) : Text :=
  '\'' :: inside '\'' c ++ ['\'']

def text (s : Text) : Text :=
  '"' :: s.flatMap (inside '"') ++ ['"']

end Quoted
end MemberNames
