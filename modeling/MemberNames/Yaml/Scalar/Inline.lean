import MemberNames.Text.Hex
import MemberNames.Yaml.Cursor

/-!
# Plain and quoted YAML scalars

Plain and quoted scalars may run over several lines. A newline inside them stands for a space, and
more of them for one newline less than there are; other line breaks stand for themselves.

* `Yaml.Scalar.Gap`: white space inside a scalar
* `Yaml.Scalar.plain?`, `Yaml.Scalar.quoted?`: the scalars that start at a place
-/

namespace MemberNames
namespace Yaml
namespace Scalar

/-! ## White space inside a scalar -/

/-- White space inside a scalar that has not been followed by a character yet. -/
inductive Gap where
  | none
  | blanks (s : Text)
  /-- A line break and further ones. -/
  | breaks (first : Char) (more : Text)
  /-- The line breaks behind one that a backslash has cancelled. -/
  | joined (more : Text)

namespace Gap

/-- Blanks next to a line break are dropped. -/
def addBlank (c : Char) : Gap → Gap
  | .none => .blanks [c]
  | .blanks s => .blanks (s ++ [c])
  | gap => gap

def addBreak (c : Char) : Gap → Gap
  | .none | .blanks _ => .breaks c []
  | .breaks first more => .breaks first (more ++ [c])
  | .joined more => .joined (more ++ [c])

/-- The characters that a gap stands for. -/
def text : Gap → Text
  | .none => []
  | .blanks s => s
  | .breaks first more =>
    if first = '\n' then (if more.isEmpty then [' '] else more) else first :: more
  | .joined more => more

/-- Whether the gap has left the line on which it began. -/
def isBroken : Gap → Bool
  | .none | .blanks _ => false
  | .breaks _ _ | .joined _ => true

def isNone : Gap → Bool
  | .none => true
  | _ => false

end Gap

/-- A scalar and the place behind it. -/
structure Found where
  text : Text
  behind : Cursor
  /-- Whether only indentation is in front of that place on its line. -/
  atLineStart : Bool

/-- The scalar with more text in front. -/
def Found.prepend (s : Text) (found : Found) : Found :=
  { found with text := s ++ found.text }

/-! ## Plain scalars -/

/-- The characters that never start a plain scalar. Dashes, question marks and colons are tokens of
their own where they do not. -/
def indicators : List Char :=
  [',', '[', ']', '\x7b', '\x7d', '#', '&', '*', '!', '|', '>', '\'', '"', '%', '@', '\x60']

/-- Whether a plain scalar starts with `c`, which is followed by `s`. -/
def startsPlain (flow : Bool) (c : Char) (s : Text) : Bool :=
  if c = '-' then !endsToken s
  else if c = '?' || c = ':' then !flow && !endsToken s
  else !(isBlank c || isBreak c || indicators.contains c)

def flowIndicators : List Char :=
  [',', '[', ']', '\x7b', '\x7d']

/-- Whether a plain scalar ends in front of the character `c`, which is followed by `s`. -/
def endsPlain (flow : Bool) (c : Char) (s : Text) : Bool :=
  (c = ':' && endsToken s) || (flow && flowIndicators.contains c)

/-- Whether `c` is a colon that, in front of `s` inside a flow collection, could end the scalar
or belong to it. -/
def isStrayColon (flow : Bool) (c : Char) (s : Text) : Bool :=
  flow && c = ':' && s.head?.any ('?' :: flowIndicators).contains

/-- Reads on in a plain scalar behind a gap. Its lines start at column `least` or behind it. -/
def plainFrom (flow : Bool) (least line column : Nat) (gap : Gap) : Text → Option Found
  | [] => some ⟨[], ⟨[], line, column⟩, gap.isBroken⟩
  | c :: s =>
    let here : Cursor := ⟨c :: s, line, column⟩
    if isBlank c then
      if gap.isBroken && column < least && c = '\t' then none
      else plainFrom flow least line (column + 1) (gap.addBlank c) s
    else if isBreak c then plainFrom flow least (line + 1) 0 (gap.addBreak c) s
    else if (gap.isBroken && !flow && column < least) || here.atAnyMarker ||
        (!gap.isNone && c = '#') || endsPlain flow c s then
      some ⟨[], here, gap.isBroken⟩
    else if isStrayColon flow c s then none
    else (plainFrom flow least line (column + 1) .none s).map (.prepend (gap.text ++ [c]))

def plain? (flow : Bool) (least : Nat) (cur : Cursor) : Option Found :=
  plainFrom flow least cur.line cur.column .none cur.rest

/-! ## Quoted scalars -/

/-- The characters that a letter behind a backslash stands for. -/
def escapes : List (Char × Nat) := [
  ('0', 0x00), ('a', 0x07), ('b', 0x08), ('t', 0x09), ('\t', 0x09), ('n', 0x0A), ('v', 0x0B),
  ('f', 0x0C), ('r', 0x0D), ('e', 0x1B), (' ', 0x20), ('"', 0x22), ('/', 0x2F), ('\\', 0x5C),
  ('N', 0x85), ('_', 0xA0), ('L', 0x2028), ('P', 0x2029)
]

/-- The number of hex digits behind the letter of an escape by code point. -/
def hexWidth? : Char → Option Nat
  | 'x' => some 2
  | 'u' => some 4
  | 'U' => some 8
  | _ => none

/-- The character of a code point in hex. -/
def ofHex? (digits : Text) : Option Char := do
  let values ← digits.mapM Hex.digit?
  let code := values.foldl (fun n d => 16 * n + d) 0
  if code.isValidChar then some (Char.ofNat code) else none

/-- What a backslash in front of `letter` and `s` stands for, and how many characters of `s` the
escape takes. -/
def escape? (letter : Char) (s : Text) : Option (Char × Nat) :=
  match escapes.lookup letter with
  | some code => some (Char.ofNat code, 0)
  | none => do
    let width ← hexWidth? letter
    if s.length < width then none
    else
      let c ← ofHex? (s.take width)
      return (c, width)

/-- Reads on in a quoted scalar behind a gap; `drop` characters at the front belong to an escape
that has been read. -/
def quotedFrom (quote : Char) (line column : Nat) (gap : Gap) (drop : Nat) : Text → Option Found
  | [] => none
  | c :: s =>
    match drop with
    | drop + 1 => quotedFrom quote line (column + 1) gap drop s
    | 0 =>
      let here : Cursor := ⟨c :: s, line, column⟩
      if here.atAnyMarker then none
      else if isBlank c then quotedFrom quote line (column + 1) (gap.addBlank c) 0 s
      else if isBreak c then quotedFrom quote (line + 1) 0 (gap.addBreak c) 0 s
      else if c = quote then
        if quote = '\'' && s.head? = some '\'' then
          (quotedFrom quote line (column + 1) .none 1 s).map (.prepend (gap.text ++ ['\'']))
        else some ⟨gap.text, ⟨s, line, column + 1⟩, false⟩
      else if c = '\\' && quote = '"' then
        match s with
        | [] => none
        | letter :: s =>
          if isBreak letter then
            (quotedFrom quote (line + 1) 0 (.joined []) 0 s).map (.prepend gap.text)
          else
            match escape? letter s with
            | none => none
            | some (d, width) =>
              (quotedFrom quote line (column + 2) .none width s).map (.prepend (gap.text ++ [d]))
      else (quotedFrom quote line (column + 1) .none 0 s).map (.prepend (gap.text ++ [c]))

/-- Reads a scalar in quotes of the given kind, the first of which stands at the place. -/
def quoted? (quote : Char) (cur : Cursor) : Option Found :=
  quotedFrom quote cur.line (cur.column + 1) .none 0 (cur.rest.drop 1)

end Scalar
end Yaml
end MemberNames
