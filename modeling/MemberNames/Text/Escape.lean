import MemberNames.Text.Basic

/-!
# Writing attribute values

A value is written so that reading gives it back. Quotes and backslashes get a backslash in front.
Double quotes go around a value that holds a special character, starts or ends with padding, or
has two adjacent characters of padding. A value that already begins and ends with a quote keeps
these two as they are and gets no further ones.

* `Escape.isPrintableStringChar`: the character class of PrintableString
* `Escape.scan`: one pass from left to right that writes a value and tells whether it needs quotes
* `Escape.value`: the written form of a value
-/

namespace MemberNames
namespace Text

/-- The characters that carry no meaning around types, values and separators: space and newline. -/
def isPadding (c : Char) : Bool :=
  c = ' ' || c = '\n'

end Text

namespace Escape

/-- Letters, digits, space and the punctuation that ASN.1 admits in a PrintableString. -/
def isPrintableStringChar (c : Char) : Bool :=
  c.isAlphanum || [' ', '\'', '(', ')', '+', ',', '-', '.', '/', ':', '=', '?'].contains c

/-- The characters that a value holds only between quotes. -/
def isSpecial (c : Char) : Bool :=
  [',', '+', '=', '\n', '<', '>', '#', ';', '\\', '"'].contains c

/-- A character with a backslash in front if it is a quote or a backslash. -/
def character (c : Char) : Text :=
  if c = '"' || c = '\\' then ['\\', c] else [c]

/-- Writes a value from left to right, and tells whether a character or its left neighbour asks for
quotes. `atStart` holds at the first character of a value, `afterPadding` behind padding. -/
def scan (atStart afterPadding : Bool) : Text → Text × Bool
  | [] => ([], false)
  | c :: s =>
    if !isPrintableStringChar c && !isSpecial c then
      let (written, quotes) := scan false false s
      (c :: written, quotes)
    else
      let padding := Text.isPadding c
      let (written, quotes) := scan false padding s
      (character c ++ written, isSpecial c || (padding && (atStart || afterPadding)) || quotes)

/-- What stands between the quotes of a value that begins and ends with one. -/
def wrapped? : Text → Option Text
  | '"' :: s => if s.getLast? = some '"' then some s.dropLast else none
  | _ => none

def quote (s : Text) : Text :=
  '"' :: s ++ ['"']

def value (v : Text) : Text :=
  match wrapped? v with
  | some inner => quote (scan false false inner).1
  | none =>
    let (written, quotes) := scan true false v
    if quotes || written.getLast?.any Text.isPadding then quote written else written

end Escape
end MemberNames
