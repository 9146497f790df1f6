import MemberNames.Text.Basic

/-!
# Places in a YAML document

* `Yaml.prepare`: the characters of a document with the usual line breaks written as newlines
* `Yaml.Cursor`: a place in a document
* `Yaml.Cursor.skip`: the place of the next token
-/

namespace MemberNames
namespace Yaml

/-! ## Characters -/

/-- The characters that a document may hold. -/
def isAdmissible (c : Char) : Bool :=
  c = '\t' || c = '\n' || c = '\r' || (' ' ≤ c && c ≤ '~') || c.toNat = 0x85 ||
    (0xA0 ≤ c.toNat && c.toNat ≤ 0xD7FF) || (0xE000 ≤ c.toNat && c.toNat ≤ 0xFFFD) ||
    0x10000 ≤ c.toNat

/-- Writes carriage returns, pairs of a carriage return and a newline, and next-line characters as
newlines. The separators of lines and paragraphs keep their identity. -/
def unifyBreaks : Text → Text
  | [] => []
  | '\r' :: '\n' :: s => '\n' :: unifyBreaks s
  | c :: s => (if c = '\r' || c.toNat = 0x85 then '\n' else c) :: unifyBreaks s

def prepare (s : Text) : Option Text :=
  if s.all isAdmissible then some (unifyBreaks s) else none

def isBlank (c : Char) : Bool :=
  c = ' ' || c = '\t'

def isBreak (c : Char) : Bool :=
  c = '\n' || c.toNat = 0x2028 || c.toNat = 0x2029

/-- Whether the character may be part of a name: of an anchor, a directive or a tag handle. -/
def isNameChar (c : Char) : Bool :=
  c.isAlphanum || c = '_' || c = '-'

/-- Whether a token ends here: at a blank, a line break or the end. -/
def endsToken : Text → Bool
  | [] => true
  | c :: _ => isBlank c || isBreak c

/-- The text behind the present line, of which nothing but blanks and a comment may be left. -/
def nextLine? (s : Text) : Option Text :=
  let s := s.dropWhile isBlank
  match if s.head? = some '#' then s.dropWhile (!isBreak ·) else s with
  | [] => some []
  | c :: s => if isBreak c then some s else none

/-! ## Places -/

/-- A place in a document. Lines and columns are counted from zero. -/
structure Cursor where
  rest : Text
  line : Nat
  column : Nat

namespace Cursor

def ofText (s : Text) : Cursor :=
  ⟨s, 0, 0⟩

/-- The place behind `n` characters of the same line. -/
def advance (cur : Cursor) (n : Nat) : Cursor :=
  { cur with rest := cur.rest.drop n, column := cur.column + n }

/-- Whether a document marker made of three times `c` stands here. -/
def atMarker (cur : Cursor) (c : Char) : Bool :=
  cur.column = 0 && cur.rest.take 3 = [c, c, c] && endsToken (cur.rest.drop 3)

/-- Whether a marker that starts or ends a document stands here. -/
def atAnyMarker (cur : Cursor) : Bool :=
  cur.atMarker '-' || cur.atMarker '.'

/-- Skips blanks, comments and line breaks, and a byte order mark at the start of a line. Where a
key may start, a tab is no blank, lest it be taken for indentation; in a block, a new line may
start a key. -/
def skipFrom (flow comment : Bool) (line column : Nat) (keyAllowed : Bool) : Text → Cursor × Bool
  | [] => (⟨[], line, column⟩, keyAllowed)
  | c :: s =>
    if isBreak c then skipFrom flow false (line + 1) 0 (keyAllowed || !flow) s
    else if comment || c = ' ' || (c = '\t' && (flow || !keyAllowed)) ||
        (column = 0 && c.toNat = 0xFEFF) then
      skipFrom flow comment line (column + 1) keyAllowed s
    else if c = '#' then skipFrom flow true line (column + 1) keyAllowed s
    else (⟨c :: s, line, column⟩, keyAllowed)

/-- The place of the next token, and whether a key may start there. -/
def skip (flow keyAllowed : Bool) (cur : Cursor) : Cursor × Bool :=
  skipFrom flow false cur.line cur.column keyAllowed cur.rest

end Cursor
end Yaml
end MemberNames
