import MemberNames.Text.Basic

/-!
# Object identifiers

An object identifier is a sequence of arcs. It has a dotted text form and a form in octets, in
which the first two arcs share one octet and every further arc is written to base 128.

* `ObjectId.toDotted`, `ObjectId.ofDotted?`: the dotted form
* `ObjectId.toContents`, `ObjectId.ofContents?`: the octets
-/

namespace MemberNames

/-- An object identifier by its arcs. -/
structure ObjectId where
  arcs : List Nat
  deriving DecidableEq, Repr

namespace ObjectId

/-- Arcs are numbers of 32 bits. -/
def arcBound : Nat :=
  0x100000000

/-! ## Octets -/

/-- The groups of seven bits above the last one, high group first, without leading zeros. -/
def highGroups (arc : Nat) : List Nat :=
  [arc / 0x10000000, arc / 0x200000 % 128, arc / 0x4000 % 128, arc / 0x80 % 128].dropWhile (· == 0)

/-- An arc to base 128, each octet but the last one with its high bit set. -/
def arcOctets (arc : Nat) : Octets :=
  (highGroups arc).map (fun group => UInt8.ofNat (128 + group)) ++ [UInt8.ofNat (arc % 128)]

def toContents : ObjectId → Octets
  | ⟨first :: second :: arcs⟩ => UInt8.ofNat (40 * first + second) :: arcs.flatMap arcOctets
  | _ => []

/-- Reads arcs to base 128, `count` octets of the present arc having made up `value`. The fifth
octet of an arc has to be its last and may fill no more than four bits. -/
def readArcs (value count : Nat) : Octets → Option (List Nat)
  | [] => if count = 0 then some [] else none
  | b :: bs =>
    if 4 ≤ count ∧ 16 ≤ b.toNat then none
    else
      let next := (value * 128 + b.toNat % 128) % arcBound
      if b.toNat < 128 then (readArcs 0 0 bs).map (next :: ·)
      else readArcs next (count + 1) bs

/-- The identifier with the given octets, of which there are 3 to 39. -/
def ofContents? (octets : Octets) : Option ObjectId :=
  if 3 ≤ octets.length ∧ octets.length ≤ 39 then
    match octets with
    | [] => none
    | b :: bs =>
      if b.toNat < 120 then
        (readArcs 0 0 bs).map fun arcs => ⟨b.toNat / 40 :: b.toNat % 40 :: arcs⟩
      else none
  else none

/-! ## Dotted text -/

def toDotted (oid : ObjectId) : Text :=
  ['.'].intercalate (oid.arcs.map Text.decimal)

def arc? (s : Text) : Option Nat :=
  if !s.isEmpty && s.all Char.isDigit then
    let value := Nat.ofDigitChars 10 s 0
    if value < arcBound then some value else none
  else none

/-- Whether dotted text may denote the arcs: at least three of them, the first two within their
shared octet, at most 38 octets in all. -/
def isAdmissible : List Nat → Bool
  | first :: second :: third :: arcs =>
    first ≤ 2 && second ≤ 39 &&
      (toContents ⟨first :: second :: third :: arcs⟩).length ≤ 38
  | _ => false

def ofDotted? (s : Text) : Option ObjectId := do
  let arcs ← (Text.splitOn '.' s).mapM arc?
  if isAdmissible arcs then some ⟨arcs⟩ else none

end ObjectId
end MemberNames
