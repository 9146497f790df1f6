import MemberNames.Yaml.Scalar.Block
import MemberNames.Yaml.Scalar.Inline
import MemberNames.Yaml.Token

/-!
# The layout of a YAML document

The tokens of a document depend on its layout: on the columns at which block collections stand, on
the flow collections around a place, and on the places at which keys may have started. A key shows
as such only by the colon behind it, so that it is announced afterwards.

* `Yaml.Layout`: what is known of the layout at a place
* `Yaml.tokens?`: the tokens of a document
-/

namespace MemberNames
namespace Yaml

/-- A place at which a key has started if a colon follows. -/
structure KeyPlace where
  /-- The number of tokens in front of it. -/
  before : Nat
  line : Nat
  column : Nat
  /-- Whether nothing but a key may start there. -/
  required : Bool

/-- A key is at most 1024 characters long and ends on its line. -/
def KeyPlace.isBehind (place : KeyPlace) (cur : Cursor) : Bool :=
  place.line < cur.line || place.column + 1024 < cur.column

/-- The layout at a place. -/
structure Layout where
  cursor : Cursor
  /-- The tokens in front of the place, latest first. -/
  tokens : List Token
  /-- The columns of the block collections around the place, innermost first. -/
  columns : List Nat
  /-- Where a key may have started in the innermost collection. -/
  key : Option KeyPlace
  /-- The same of what is around each flow collection, innermost first. -/
  outerKeys : List (Option KeyPlace)
  /-- Whether a key may start here. -/
  keyAllowed : Bool

namespace Layout

def ofText (s : Text) : Layout :=
  ⟨.ofText s, [], [], none, [], true⟩

/-- Whether the place is inside a flow collection. -/
def inFlow (l : Layout) : Bool :=
  !l.outerKeys.isEmpty

/-- The column at which a block collection starts here at the earliest. -/
def least (l : Layout) : Nat :=
  match l.columns with
  | [] => 0
  | column :: _ => column + 1

def add (l : Layout) (t : Token) : Layout :=
  { l with tokens := t :: l.tokens }

/-- Adds the token for `n` characters of the present line. -/
def take (l : Layout) (n : Nat) (t : Token) : Layout :=
  { l.add t with cursor := l.cursor.advance n }

/-! ## Block collections -/

/-- Opens a block collection at a column unless there is one, with its first token behind the
`before` tokens in front of it. -/
def openBlock (l : Layout) (column before : Nat) (start : Token) : Layout :=
  if l.inFlow || column < l.least then l
  else
    let later := l.tokens.length - before
    { l with
      columns := column :: l.columns
      tokens := l.tokens.take later ++ start :: l.tokens.drop later }

/-- Opens a block collection at the place, where it may only start if a key may. -/
def openBlockHere? (l : Layout) (start : Token) : Option Layout :=
  if l.inFlow then some l
  else if l.keyAllowed then some (l.openBlock l.cursor.column l.tokens.length start)
  else none

/-- Ends the block collections that stand at other columns than those to keep. -/
def closeBlocks (l : Layout) (keep : Nat → Bool) : Layout :=
  if l.inFlow then l
  else
    let closed := l.columns.takeWhile (!keep ·)
    { l with
      columns := l.columns.drop closed.length
      tokens := closed.map (fun _ => Token.blockEnd) ++ l.tokens }

/-! ## Keys -/

/-- Gives up the place at which a key may have started, unless a key is required there. -/
def dropKey? (l : Layout) : Option Layout :=
  if l.key.any (·.required) then none else some { l with key := none }

/-- Notes that a key may have started here. It has to, if the innermost collection is a block and
stands at this column. -/
def noteKey? (l : Layout) : Option Layout :=
  if l.keyAllowed then do
    let l ← l.dropKey?
    let required := !l.inFlow && l.columns.head? = some l.cursor.column
    return { l with key := some ⟨l.tokens.length, l.cursor.line, l.cursor.column, required⟩ }
  else some l

/-- Gives up the places at which a key would be too long by now. -/
def dropLongKeys? (l : Layout) : Option Layout :=
  let isLong (place : Option KeyPlace) := place.any (·.isBehind l.cursor)
  let places := l.key :: l.outerKeys
  if places.any fun place => isLong place && place.any (·.required) then none
  else
    let left (place : Option KeyPlace) := if isLong place then none else place
    some { l with key := left l.key, outerKeys := l.outerKeys.map left }

/-- Announces the key in front of a colon. Without one, a question mark has announced it, or it is
missing. -/
def announceKey? (l : Layout) : Option Layout :=
  match l.key with
  | some place =>
    let later := l.tokens.length - place.before
    let tokens := l.tokens.take later ++ .key :: l.tokens.drop later
    let l := { l with tokens := tokens, key := none, keyAllowed := false }
    some (l.openBlock place.column place.before .blockMapStart)
  | none => do
    let l ← l.openBlockHere? .blockMapStart
    return { l with keyAllowed := !l.inFlow }

/-! ## Tokens -/

/-- Reads a directive or a marker between documents. All blocks end in front of it. -/
def boundary? (l : Layout) (t : Token) (cursor : Cursor) : Option Layout := do
  let l ← (l.closeBlocks fun _ => false).dropKey?
  return { l.add t with cursor := cursor, keyAllowed := false }

def openFlow? (l : Layout) (t : Token) : Option Layout := do
  let l ← l.noteKey?
  return { l.take 1 t with key := none, outerKeys := l.key :: l.outerKeys, keyAllowed := true }

def closeFlow? (l : Layout) (t : Token) : Option Layout := do
  let l := { (← l.dropKey?).take 1 t with keyAllowed := false }
  match l.outerKeys with
  | [] => return l
  | key :: outerKeys => return { l with key := key, outerKeys := outerKeys }

/-- Reads an indicator that a key may follow, or may only follow in a block. -/
def separate? (l : Layout) (t : Token) (keyAllowed : Bool) : Option Layout := do
  let l ← l.dropKey?
  return { l.take 1 t with keyAllowed := keyAllowed }

/-- Reads a token with which a key may start. -/
def content? (l : Layout) (read : Layout → Option (Token × Cursor × Bool)) : Option Layout := do
  let l ← l.noteKey?
  let (t, cursor, keyAllowed) ← read l
  return { l.add t with cursor := cursor, keyAllowed := keyAllowed }

/-- The name behind `&` or `*`, and the place behind it. -/
def anchorName? (cur : Cursor) : Option (Text × Cursor) :=
  let name := (cur.rest.drop 1).takeWhile isNameChar
  let cur := cur.advance (name.length + 1)
  let ends :=
    endsToken cur.rest || cur.rest.head?.any ['?', ':', ',', ']', '\x7d', '%', '@', '\x60'].contains
  if name.isEmpty || !ends then none else some (name, cur)

def named? (t : Text → Token) (l : Layout) : Option (Token × Cursor × Bool) := do
  let (name, cur) ← anchorName? l.cursor
  return (t name, cur, false)

def tag? (l : Layout) : Option (Token × Cursor × Bool) := do
  let (tag, rest) ← Tag.read? (l.cursor.rest.drop 1)
  if endsToken rest || (l.inFlow && rest.head? = some ',') then
    return (.tag tag, l.cursor.advance (l.cursor.rest.length - rest.length), false)
  else none

def quoted? (quote : Char) (l : Layout) : Option (Token × Cursor × Bool) := do
  let found ← Scalar.quoted? quote l.cursor
  return (.scalar false found.text, found.behind, found.atLineStart)

def plain? (l : Layout) : Option (Token × Cursor × Bool) := do
  let found ← Scalar.plain? l.inFlow l.least l.cursor
  return (.scalar true found.text, found.behind, found.atLineStart)

/-- Reads a block scalar. Behind it a line starts, on which there may be a key. -/
def blockScalar? (l : Layout) : Option Layout := do
  let l ← l.dropKey?
  let (text, cursor) ← Scalar.block? l.least l.cursor
  return { l.add (.scalar false text) with cursor := cursor, keyAllowed := true }

/-- Reads the token at the place, which starts with `c`, in front of `s`. -/
def token? (l : Layout) (c : Char) (s : Text) : Option Layout :=
  if l.cursor.column = 0 && c = '%' then do
    let (directive, rest) ← Directive.read? s
    l.boundary? (.directive directive) ⟨rest, l.cursor.line + 1, 0⟩
  else if l.cursor.atMarker '-' then l.boundary? .documentStart (l.cursor.advance 3)
  else if l.cursor.atMarker '.' then l.boundary? .documentEnd (l.cursor.advance 3)
  else if c = '[' then l.openFlow? .flowListStart
  else if c = '\x7b' then l.openFlow? .flowMapStart
  else if c = ']' then l.closeFlow? .flowListEnd
  else if c = '\x7d' then l.closeFlow? .flowMapEnd
  else if c = ',' then l.separate? .comma true
  else if c = '-' && endsToken s then do
    (← l.openBlockHere? .blockListStart).separate? .dash true
  else if c = '?' && (l.inFlow || endsToken s) then do
    (← l.openBlockHere? .blockMapStart).separate? .key (!l.inFlow)
  else if c = ':' && (l.inFlow || endsToken s) then l.announceKey?.map (·.take 1 .value)
  else if c = '*' then l.content? (named? .alias)
  else if c = '&' then l.content? (named? .anchor)
  else if c = '!' then l.content? tag?
  else if (c = '|' || c = '>') && !l.inFlow then l.blockScalar?
  else if c = '\'' || c = '"' then l.content? (quoted? c)
  else if Scalar.startsPlain l.inFlow c s then l.content? plain?
  else none

/-- Goes on to the next token. Block collections end in front of a place further left. -/
def skip? (l : Layout) : Option Layout := do
  let (cursor, keyAllowed) := l.cursor.skip l.inFlow l.keyAllowed
  let l ← { l with cursor := cursor, keyAllowed := keyAllowed }.dropLongKeys?
  return l.closeBlocks (· ≤ l.cursor.column)

/-- Reads at most `bound` tokens up to the end of the document. -/
def readFrom (bound : Nat) (l : Layout) : Option (List Token) :=
  match bound with
  | 0 => none
  | bound + 1 => do
    let l ← l.skip?
    match l.cursor.rest with
    | [] =>
      let l ← (l.closeBlocks fun _ => false).dropKey?
      return l.tokens.reverse
    | c :: s => readFrom bound (← l.token? c s)

end Layout

/-- The tokens of a document. Each of them takes at least one character. -/
def tokens? (s : Text) : Option (List Token) := do
  let s ← prepare s
  Layout.readFrom (s.length + 1) (.ofText s)

end Yaml
end MemberNames
