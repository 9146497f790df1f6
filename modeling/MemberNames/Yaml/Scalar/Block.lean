import MemberNames.Yaml.Cursor

/-!
# Block YAML scalars

A block scalar is a header and the lines behind it that are indented. A literal scalar keeps its
line breaks; in a folded one, a newline between two lines that start without a blank stands for a
space, or for nothing where empty lines follow it.

* `Yaml.Scalar.Header`: what may stand behind `|` or `>`
* `Yaml.Scalar.block?`: the scalar that starts at a place
-/

namespace MemberNames
namespace Yaml
namespace Scalar

/-! ## Headers -/

/-- What becomes of the line breaks at the end of a block scalar, where it is not the usual one
break. -/
inductive Chomping where
  | strip
  | keep

/-- The header of a block scalar, as far as it is given. -/
structure Header where
  chomping : Option Chomping
  increment : Option Nat

def chomping? : Char → Option Chomping
  | '-' => some .strip
  | '+' => some .keep
  | _ => none

def increment? (c : Char) : Option Nat :=
  if '1' ≤ c && c ≤ '9' then some (c.toNat - '0'.toNat) else none

/-- Reads the indicators of a header, each kind at most once and in any order. -/
def headerFrom (h : Header) : Text → Header × Text
  | [] => (h, [])
  | c :: s =>
    match h.chomping, chomping? c, h.increment, increment? c with
    | none, some chomping, _, _ => headerFrom { h with chomping := some chomping } s
    | _, _, none, some n => headerFrom { h with increment := some n } s
    | _, _, _, _ => (h, c :: s)

/-- Reads the header behind `|` or `>` and gives the text behind its line. -/
def header? (s : Text) : Option (Header × Text) := do
  let (header, s) := headerFrom ⟨none, none⟩ s
  let s ← nextLine? s
  return (header, s)

/-! ## Lines -/

/-- A line and the line break at its end, which may be missing at the end of the document. -/
structure Line where
  text : Text
  ending : Text

def Line.ofText : Text → List Line
  | [] => []
  | c :: s =>
    if isBreak c then ⟨[], [c]⟩ :: ofText s
    else
      match ofText s with
      | [] => [⟨[c], []⟩]
      | line :: rest => { line with text := c :: line.text } :: rest

namespace Line

/-- The indentation of a line, counted in spaces. -/
def indentation (line : Line) : Nat :=
  (line.text.takeWhile (· = ' ')).length

/-- Whether a tab stands where the indentation ends. -/
def hasTab (line : Line) : Bool :=
  (line.text.drop line.indentation).head? = some '\t'

def isAllSpaces (line : Line) : Bool :=
  line.text.all (· = ' ')

/-- Whether a line has nothing but at most `indent` spaces. -/
def isEmpty (indent : Nat) (line : Line) : Bool :=
  line.isAllSpaces && line.text.length ≤ indent

end Line

/-- The greatest indentation of the lines up to the first one with content, where no tab may
follow it. -/
def detect? (greatest : Nat) : List Line → Option Nat
  | [] => some greatest
  | line :: rest =>
    let greatest := max greatest line.indentation
    if line.isAllSpaces then detect? greatest rest
    else if line.hasTab then none
    else some greatest

/-- What has been read of a block scalar. -/
structure Folding where
  text : Text
  /-- The line break that is due behind the text. -/
  ending : Text
  /-- The line breaks of the empty lines behind it. -/
  empty : Text
  /-- Whether the last line began with a blank. -/
  blankStart : Bool

/-- Adds a line with content. -/
def Folding.addLine (folded : Bool) (f : Folding) (text ending : Text) : Folding :=
  let blank := text.head?.any isBlank
  let join :=
    if folded && f.ending = ['\n'] && !f.blankStart && !blank then
      (if f.empty.isEmpty then [' '] else [])
    else f.ending
  ⟨f.text ++ join ++ f.empty ++ text, ending, [], blank⟩

/-- Reads the lines of a block scalar that is indented by `indent` columns, and gives the lines
behind it. -/
def blockLines (folded : Bool) (indent : Nat) (f : Folding) :
    List Line → Option (Folding × List Line)
  | [] => some (f, [])
  | line :: rest =>
    if line.isEmpty indent then
      blockLines folded indent { f with empty := f.empty ++ line.ending } rest
    else if indent ≤ line.indentation then
      blockLines folded indent (f.addLine folded (line.text.drop indent) line.ending) rest
    else if line.hasTab then none
    else some (f, line :: rest)

/-- Reads the block scalar whose `|` or `>` stands at the place. Its lines start at column `least`
or behind it. -/
def block? (least : Nat) (cur : Cursor) : Option (Text × Cursor) := do
  let folded := cur.rest.head? = some '>'
  let (header, s) ← header? (cur.rest.drop 1)
  let lines := Line.ofText s
  let indent ←
    match header.increment with
    | some n => some (least - 1 + n)
    | none => (detect? 0 lines).map (max · (max least 1))
  let (f, rest) ← blockLines folded indent ⟨[], [], [], false⟩ lines
  let tail :=
    match header.chomping with
    | some .strip => []
    | none => f.ending
    | some .keep => f.ending ++ f.empty
  let read := lines.length - rest.length
  return (f.text ++ tail, ⟨rest.flatMap fun l => l.text ++ l.ending, cur.line + 1 + read, 0⟩)

end Scalar
end Yaml
end MemberNames
