import MemberNames.Text.Hex
import MemberNames.Yaml.Cursor

/-!
# YAML tags and directives

A tag is a handle and a suffix. The handle stands for a prefix, which a directive in front of the
document may set. Tags are octets, because escapes in them may spell any octets.

* `Yaml.Tag.read?`: the tag behind an exclamation mark
* `Yaml.Directive.read?`: the directive behind a percent sign
* `Yaml.Handles.ofDirectives?`: what the directives of a document say about handles
* `Yaml.Tag.resolve?`: the tag with the prefix in place of the handle
-/

namespace MemberNames
namespace Yaml

/-! ## Octets of tags -/

/-- Whether the character may be part of a tag behind its handle. -/
def isTagChar (c : Char) : Bool :=
  isNameChar c ||
    [';', '/', '?', ':', '@', '&', '=', '+', '$', '.', '!', '~', '*', '\'', '(', ')'].contains c

/-- Where nothing else could end a tag, these are part of it as well. -/
def isWideTagChar (c : Char) : Bool :=
  isTagChar c || [',', '[', ']'].contains c

/-- How many octets have to follow an octet so that they can spell one character. -/
def followers? (b : UInt8) : Option Nat :=
  if b < 0x80 then some 0
  else if b < 0xC0 then none
  else if b < 0xE0 then some 1
  else if b < 0xF0 then some 2
  else if b < 0xF8 then some 3
  else none

/-- Reads characters of the class and escapes, which are a percent sign and two hex digits. The
next `due` octets have to be escapes that continue a character. -/
def tagOctetsFrom (p : Char → Bool) (due : Nat) : Text → Option (Octets × Text)
  | '%' :: high :: low :: s => do
    let b ← Hex.octet? high low
    let due ←
      match due with
      | 0 => followers? b
      | due + 1 => if 0x80 ≤ b && b < 0xC0 then some due else none
    let (bs, rest) ← tagOctetsFrom p due s
    return (b :: bs, rest)
  | c :: s =>
    if due ≠ 0 || c = '%' then none
    else if p c then do
      let (bs, rest) ← tagOctetsFrom p 0 s
      return (UInt8.ofNat c.toNat :: bs, rest)
    else some ([], c :: s)
  | [] => if due = 0 then some ([], []) else none

/-- An escaped null character and what is behind it do not count. -/
def beforeNull (bs : Octets) : Octets :=
  bs.takeWhile (· ≠ 0)

/-- Reads the octets of a tag, of which at least one is written. -/
def tagOctets? (p : Char → Bool) (s : Text) : Option (Octets × Text) := do
  let (bs, rest) ← tagOctetsFrom p 0 s
  if bs.isEmpty then none else return (beforeNull bs, rest)

/-! ## Tags -/

/-- A tag as it is written. It has no handle if it is written in full. -/
structure Tag where
  handle : Text
  suffix : Octets
  deriving Repr

/-- Reads the tag behind an exclamation mark: a full one in angle brackets, one with a named
handle, or one whose handle is the exclamation mark. A lone exclamation mark is a full tag. -/
def Tag.read? (s : Text) : Option (Tag × Text) :=
  match s with
  | '<' :: s => do
    let (bs, rest) ← tagOctets? isWideTagChar s
    match rest with
    | '>' :: rest => return (⟨[], bs⟩, rest)
    | _ => none
  | s =>
    let name := s.takeWhile isNameChar
    match s.drop name.length with
    | '!' :: s => do
      let (bs, rest) ← tagOctets? isTagChar s
      return (⟨'!' :: name ++ ['!'], bs⟩, rest)
    | _ => do
      let (bs, rest) ← tagOctetsFrom isTagChar 0 s
      let bs := beforeNull bs
      return (if bs.isEmpty then ⟨[], Utf8.encode ['!']⟩ else ⟨['!'], bs⟩, rest)

/-! ## Directives -/

/-- A directive in front of a document. -/
inductive Directive where
  | version (major minor : Nat)
  | handle (name : Text) (octets : Octets)
  deriving Repr

namespace Directive

/-- Reads a number of one to nine digits. -/
def number? (s : Text) : Option (Nat × Text) :=
  let digits := s.takeWhile Char.isDigit
  if digits.isEmpty || 9 < digits.length then none
  else some (digits.foldl (fun n d => 10 * n + (d.toNat - '0'.toNat)) 0, s.drop digits.length)

def version? (s : Text) : Option (Directive × Text) := do
  let (major, s) ← number? s
  match s with
  | '.' :: s =>
    let (minor, s) ← number? s
    return (.version major minor, s)
  | _ => none

/-- Reads a handle, which is an exclamation mark or a name between two of them. -/
def handleName? (s : Text) : Option (Text × Text) :=
  match s with
  | '!' :: s =>
    let name := s.takeWhile isNameChar
    match s.drop name.length with
    | '!' :: s => some ('!' :: name ++ ['!'], s)
    | s => if name.isEmpty then some (['!'], s) else none
  | _ => none

def handle? (s : Text) : Option (Directive × Text) := do
  let (name, s) ← handleName? s
  if !s.head?.any isBlank then none
  let (bs, s) ← tagOctets? isWideTagChar (s.dropWhile isBlank)
  if endsToken s then return (.handle name bs, s) else none

/-- Reads the directive behind a percent sign and gives the text behind its line. -/
def read? (s : Text) : Option (Directive × Text) := do
  let name := s.takeWhile isNameChar
  let s := s.drop name.length
  if !endsToken s then none
  let value := s.dropWhile isBlank
  let (directive, s) ←
    if name = "YAML".toList then version? value
    else if name = "TAG".toList then handle? value
    else none
  let s ← nextLine? s
  return (directive, s)

end Directive

/-! ## Handles -/

/-- The prefixes that handles stand for. -/
abbrev Handles := List (Text × Octets)

namespace Handles

/-- What the handles stand for that every document has. -/
def standard : Handles :=
  [(['!'], Utf8.encode ['!']), (['!', '!'], Utf8.encode "tag:yaml.org,2002:".toList)]

/-- The handles that directives set, each at most once. At most one directive tells the version,
which is 1.1 or 1.2. -/
def declared? : List Directive → Option Handles
  | [] => some []
  | .version major minor :: directives =>
    let again := directives.any fun | .version _ _ => true | .handle _ _ => false
    if again || major ≠ 1 || (minor ≠ 1 && minor ≠ 2) then none else declared? directives
  | .handle name octets :: directives => do
    let handles ← declared? directives
    if (handles.lookup name).isSome then none else return (name, octets) :: handles

/-- The handles of a document with the directives. -/
def ofDirectives? (directives : List Directive) : Option Handles :=
  (declared? directives).map (· ++ standard)

end Handles

/-- The tag in full, if its handle stands for something. -/
def Tag.resolve? (handles : Handles) (tag : Tag) : Option Octets :=
  if tag.handle.isEmpty then some tag.suffix
  else (handles.lookup tag.handle).map (· ++ tag.suffix)

end Yaml
end MemberNames
