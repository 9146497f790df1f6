import MemberNames.Rdn.Basic
import MemberNames.Text.Slice

/-!
# Attribute values in text

A value is quoted, unquoted, or the hex digits of a DER element after `#`. Quoted and unquoted
values are read as lexemes: a character, a backslash and an escaped character, or a backslash and
the two hex digits of an octet. Adjacent octets are read together as UTF-8. A value can also be
built as octets, together with the number of those that trimming keeps.

* `Lexeme.list`: the lexemes of a text
* `Value.Buffer`: a value that is being read
* `Value.Builder`, `Value.Addition`: a value in octets, and what is added to it
* `Value.readHexOctets`: the hex digits of a value, pair by pair
* `Value.read`: the value that a text denotes
-/

namespace MemberNames

/-! ## Lexemes -/

/-- A unit of a quoted or unquoted value. -/
inductive Lexeme where
  | char (c : Char)
  | escaped (c : Char)
  | octet (b : UInt8)
  /-- An escape that is none; nothing is read after it. -/
  | faulty (d : Defect)
  deriving DecidableEq, Repr

namespace Lexeme

/-- The characters that may follow a backslash and then stand for themselves. -/
def isEscapable (c : Char) : Bool :=
  [',', '+', '=', '"', '\\', '<', '>', ';', '#', ' '].contains c

def list : Text → List Lexeme
  | [] => []
  | c :: s =>
    if c = '\\' then
      match s with
      | [] => [.faulty .danglingValueEscape]
      | d :: s =>
        match Hex.digit? d with
        | some high =>
          match s with
          | [] => [.faulty .incompleteHexEscape]
          | d' :: s =>
            match Hex.digit? d' with
            | some low => .octet (UInt8.ofNat (16 * high + low)) :: list s
            | none => [.faulty .incompleteHexEscape]
        | none =>
          if isEscapable d then .escaped d :: list s else [.faulty (.invalidEscape d)]
    else .char c :: list s

end Lexeme

namespace Value

/-! ## Buffer -/

/-- A value that is being read. -/
structure Buffer where
  /-- The text up to its last character that trimming must not remove. -/
  kept : Text
  /-- The characters after it, which trimming at the end removes. -/
  loose : Text
  /-- The octets of escapes that have not been read as characters yet. -/
  pending : Octets
  deriving DecidableEq, Repr

namespace Buffer

def empty : Buffer :=
  ⟨[], [], []⟩

/-- All characters read so far. -/
def text (b : Buffer) : Text :=
  b.kept ++ b.loose

/-- Reads the pending octets as characters, which trimming then leaves alone. -/
def flush (b : Buffer) : Except Defect Buffer :=
  if b.pending.isEmpty then .ok b
  else
    match Utf8.decode? b.pending with
    | none => .error .escapesNotUtf8
    | some s => .ok ⟨b.text ++ s, [], []⟩

/-- Adds a character that trimming must not remove. -/
def keep (b : Buffer) (c : Char) : Except Defect Buffer :=
  b.flush.map fun b => ⟨b.text ++ [c], [], []⟩

/-- Adds a character that trimming removes when no other one follows. -/
def hang (b : Buffer) (c : Char) : Except Defect Buffer :=
  b.flush.map fun b => ⟨b.kept, b.loose ++ [c], []⟩

def pushOctet (b : Buffer) (o : UInt8) : Buffer :=
  { b with pending := b.pending ++ [o] }

/-- The value as it was read. -/
def finish (b : Buffer) : Except Defect Text :=
  b.flush.map text

/-- The value without the loose characters at its end. -/
def finishTrimmed (b : Buffer) : Except Defect Text :=
  b.flush.map kept

end Buffer

/-! ## Additions -/

/-- What is added to a value: a character that trimming must leave alone or not, or an octet of an
escape. -/
inductive Addition where
  | char (c : Char) (significant : Bool)
  | octet (o : UInt8)
  deriving DecidableEq, Repr

namespace Buffer

def add (b : Buffer) : Addition → Except Defect Buffer
  | .char c significant => if significant then b.keep c else b.hang c
  | .octet o => .ok (b.pushOctet o)

def addAll (b : Buffer) (as : List Addition) : Except Defect Buffer :=
  as.foldlM add b

def build (trim : Bool) (as : List Addition) : Except Defect Text :=
  empty.addAll as >>= if trim then finishTrimmed else finish

end Buffer

/-! ## Builder -/

/-- A value that is being read, in octets. -/
structure Builder where
  out : Octets
  /-- The octets of escapes that have not been read as characters yet. -/
  pending : Octets
  /-- The number of octets that trimming keeps. -/
  significant : Nat
  deriving DecidableEq, Repr

namespace Builder

def empty : Builder :=
  ⟨[], [], 0⟩

def flush (b : Builder) : Except (SliceError Defect) Builder :=
  if b.pending.isEmpty then .ok b
  else
    match Utf8.decode? b.pending with
    | none => .error (.cause .escapesNotUtf8)
    | some s =>
      let out := b.out ++ Utf8.encode s
      .ok ⟨out, [], out.length⟩

def push (b : Builder) (c : Char) (significant : Bool) : Except (SliceError Defect) Builder :=
  b.flush.map fun b =>
    let out := b.out ++ Utf8.encodeChar c
    ⟨out, b.pending, if significant then out.length else b.significant⟩

def add (b : Builder) : Addition → Except (SliceError Defect) Builder
  | .char c significant => b.push c significant
  | .octet o => .ok { b with pending := b.pending ++ [o] }

def addAll (b : Builder) (as : List Addition) : Except (SliceError Defect) Builder :=
  as.foldlM add b

/-- The value, cut behind its significant octets if it is to be trimmed. -/
def finish (trim : Bool) (b : Builder) : Except (SliceError Defect) Octets := do
  let b ← b.flush
  if trim then SliceError.slice b.out 0 b.significant else .ok b.out

def build (trim : Bool) (as : List Addition) : Except (SliceError Defect) Octets :=
  empty.addAll as >>= finish trim

end Builder

/-! ## Quoted and unquoted values -/

/-- The characters that an unquoted value may hold only behind a backslash. -/
def isReserved (c : Char) : Bool :=
  ['<', '>', '+', ',', ';'].contains c

/-- Reads the lexemes of an unquoted value. -/
def readUnquoted (b : Buffer) : List Lexeme → Except Defect Text
  | [] => b.finishTrimmed
  | .faulty d :: _ => .error d
  | .octet o :: ls => readUnquoted (b.pushOctet o) ls
  | .escaped c :: ls => do readUnquoted (← b.keep c) ls
  | .char c :: ls =>
    if c = '"' then .error .strayQuote
    else if isReserved c then .error (.unescapedInValue c)
    else if Text.isPadding c then do readUnquoted (← b.hang c) ls
    else do readUnquoted (← b.keep c) ls

def isPaddingLexeme : Lexeme → Bool
  | .char c => Text.isPadding c
  | _ => false

/-- Reads the lexemes of a quoted value after its opening quote. -/
def readQuoted (b : Buffer) : List Lexeme → Except Defect Text
  | [] => .error .unterminatedQuotes
  | .faulty d :: _ => .error d
  | .octet o :: ls => readQuoted (b.pushOctet o) ls
  | .escaped c :: ls => do readQuoted (← b.keep c) ls
  | .char c :: ls =>
    if c = '"' then
      if ls.all isPaddingLexeme then b.finish else .error .textAfterQuotes
    else do readQuoted (← b.keep c) ls

/-! ## Hex values -/

/-- The text of a directory string. -/
def ofElement (e : Der.Element) : Except Defect Text :=
  if e.tag = Der.Tag.utf8String ∨ e.tag = Der.Tag.printableString ∨ e.tag = Der.Tag.ia5String then
    match Utf8.decode? e.content with
    | none => .error .valueNotUtf8
    | some s => .ok s
  else .error (.unsupportedValueType e.tag)

/-- Reads the hex digits after `#`. -/
def readHex (digits : Text) : Except Defect Text :=
  if digits.isEmpty || digits.length % 2 != 0 || !digits.all Hex.isDigit then
    .error (.invalidHexValue digits)
  else
    match Hex.decode? digits with
    | none => .error .hexConversion
    | some octets =>
      match Der.Element.ofOctets octets with
      | .error e => .error (.invalidElement e)
      | .ok e => ofElement e

/-- The octet that two octets of hex digits spell. -/
def pairOctet? (pair : Octets) : Option UInt8 :=
  match pair.map Char.ofUInt8 with
  | [high, low] => Hex.pair? high low
  | _ => none

/-- The octet that is spelled from an offset on. -/
def octetAt (digits : Octets) (offset : Nat) : Except (SliceError Defect) UInt8 := do
  let pair ← SliceError.slice digits offset (offset + 2)
  match pairOctet? pair with
  | none => .error (.cause .hexConversion)
  | some b => .ok b

/-- Reads the hex digits after `#`, pair by pair. -/
def readHexOctets (digits : Text) : Except (SliceError Defect) Text :=
  let spelled := Utf8.encode digits
  if spelled.isEmpty || spelled.length % 2 != 0 || !digits.all Hex.isDigit then
    .error (.cause (.invalidHexValue digits))
  else do
    let octets ← (List.range' 0 ((spelled.length + 1) / 2) 2).mapM (octetAt spelled)
    match Der.Element.ofOctets octets with
    | .error e => .error (.cause (.invalidElement e))
    | .ok e => SliceError.lift (ofElement e)

/-! ## Values -/

/-- The value that stands after `=`. -/
def read (raw : Text) : Except Defect Text :=
  match Text.trimStart Text.isPadding raw with
  | '"' :: s => readQuoted .empty (Lexeme.list s)
  | '#' :: s => readHex (Text.trimEnd Text.isPadding s)
  | s => readUnquoted .empty (Lexeme.list s)

end Value
end MemberNames
