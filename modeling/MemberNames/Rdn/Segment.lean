import MemberNames.Rdn.Basic
import MemberNames.Text.Slice

/-!
# Cutting a text into segments

Commas and semicolons outside quotes separate the segments of a text. A backslash protects the
character after it wherever it stands. The cut sees the whole text, so that its defects are found
before any segment is read.

Segments can also be cut out of the octets of the text, at offsets that are counted along the way.

* `Segment.cut`: the segments of a text, separators left out
* `Segment.Cursor`, `Segment.cutOctets`: the same in octets
-/

namespace MemberNames
namespace Segment

/-- Puts a piece in front of the first segment. -/
def extend (piece : Text) : List Text → List Text
  | [] => [piece]
  | segment :: segments => (piece ++ segment) :: segments

/-- Cuts what follows a point that is inside quotes or not; the first segment is the rest of the
one that contains the point. -/
def cutFrom (quoted : Bool) : Text → Except Defect (List Text)
  | [] => if quoted then .error .unbalancedQuotes else .ok [[]]
  | c :: s =>
    if c = '\\' then
      match s with
      | [] => .error .danglingEscape
      | d :: s => (cutFrom quoted s).map (extend [c, d])
    else if c = '"' then (cutFrom (!quoted) s).map (extend [c])
    else if quoted then (cutFrom quoted s).map (extend [c])
    else if c = ',' || c = ';' then (cutFrom quoted s).map ([] :: ·)
    else if c = '+' then .error .multiValued
    else if c = '<' || c = '>' then .error (.unescapedOutsideQuotes c)
    else (cutFrom quoted s).map (extend [c])

/-- The segments of a text; a text of padding alone has none. -/
def cut (s : Text) : Except Defect (List Text) :=
  if s.all Text.isPadding then .ok [] else cutFrom false s

/-! ## Cuts at offsets -/

/-- A reader on its way through the octets of a text. -/
structure Cursor where
  /-- Where the segment begins that is being read. -/
  start : Nat
  quoted : Bool
  escaped : Bool
  /-- The segments in front of it. -/
  segments : List Octets
  deriving DecidableEq, Repr

namespace Cursor

/-- Reads the character at an offset. -/
def step (whole : Octets) (cursor : Cursor) (offset : Nat) (c : Char) :
    Except (SliceError Defect) Cursor :=
  if cursor.escaped then .ok { cursor with escaped := false }
  else if c = '\\' then .ok { cursor with escaped := true }
  else if c = '"' then .ok { cursor with quoted := !cursor.quoted }
  else if cursor.quoted then .ok cursor
  else if c = ',' || c = ';' then do
    let segment ← SliceError.slice whole cursor.start offset
    return { cursor with
      start := offset + (Utf8.encodeChar c).length
      segments := cursor.segments ++ [segment] }
  else if c = '+' then .error (.cause .multiValued)
  else if c = '<' || c = '>' then .error (.cause (.unescapedOutsideQuotes c))
  else .ok cursor

/-- The segments, the last one up to the end. -/
def finish (whole : Octets) (cursor : Cursor) : Except (SliceError Defect) (List Octets) :=
  if cursor.escaped then .error (.cause .danglingEscape)
  else if cursor.quoted then .error (.cause .unbalancedQuotes)
  else do
    let segment ← SliceError.slice whole cursor.start whole.length
    return cursor.segments ++ [segment]

/-- Reads the characters from an offset on. -/
def run (whole : Octets) (cursor : Cursor) (offset : Nat) :
    Text → Except (SliceError Defect) (List Octets)
  | [] => cursor.finish whole
  | c :: s => do
    let cursor ← cursor.step whole offset c
    run whole cursor (offset + (Utf8.encodeChar c).length) s

end Cursor

/-- The segments of a text, cut out of its octets. -/
def cutOctets (s : Text) : Except (SliceError Defect) (List Octets) :=
  if s.all Text.isPadding then .ok [] else Cursor.run (Utf8.encode s) ⟨0, false, false, []⟩ 0 s

end Segment
end MemberNames
