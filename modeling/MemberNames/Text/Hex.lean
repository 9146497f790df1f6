import MemberNames.Text.Utf8
import MemberNames.Unicode.WhiteSpace

/-!
# Hexadecimal text

An octet is written as two digits, high half first, in lower case.

* `Hex.encode`: the digits of an octet string
* `Hex.decode?`: the octets of a text that holds pairs of digits only
* `Hex.read`: hex as people paste it, with white space around it and an error that tells where
  reading stopped
-/

namespace MemberNames
namespace Hex

/-- The value of a hex digit in either letter case. -/
def digit? (c : Char) : Option Nat :=
  if '0' ≤ c ∧ c ≤ '9' then some (c.toNat - '0'.toNat)
  else if 'a' ≤ c ∧ c ≤ 'f' then some (c.toNat - 'a'.toNat + 10)
  else if 'A' ≤ c ∧ c ≤ 'F' then some (c.toNat - 'A'.toNat + 10)
  else none

def isDigit (c : Char) : Bool :=
  (digit? c).isSome

/-! ## Writing -/

def encodeOctet (b : UInt8) : Text :=
  [Nat.digitChar (b.toNat / 16), Nat.digitChar (b.toNat % 16)]

def encode (bs : Octets) : Text :=
  bs.flatMap encodeOctet

/-! ## Reading digits -/

def octet? (high low : Char) : Option UInt8 := do
  let h ← digit? high
  let l ← digit? low
  return UInt8.ofNat (16 * h + l)

def decode? : Text → Option Octets
  | [] => some []
  | [_] => none
  | high :: low :: s => do
    let b ← octet? high low
    (decode? s).map (b :: ·)

/-! ## Reading pasted text -/

/-- Why a text is not hex; lengths and offsets count octets of the trimmed text. -/
inductive Error where
  | oddLength (length : Nat)
  | invalidPair (offset : Nat)
  deriving DecidableEq, Repr

def Error.message : Error → Text
  | .oddLength length => "hex input has odd length ".toList ++ Text.decimal length
  | .invalidPair offset => "invalid hex at offset ".toList ++ Text.decimal offset

/-- A pair is an unsigned numeral of two places: two digits, or a plus sign and one digit. -/
def pair? (high low : Char) : Option UInt8 :=
  if high = '+' then (digit? low).map UInt8.ofNat else octet? high low

/-- Reads the pairs from `offset` on. An octet above the ASCII range is no digit. -/
def readPairs (offset : Nat) : Octets → Except Error Octets
  | [] => .ok []
  | [_] => .ok []
  | high :: low :: s =>
    match pair? (Char.ofUInt8 high) (Char.ofUInt8 low) with
    | none => .error (.invalidPair offset)
    | some b => (readPairs (offset + 2) s).map (b :: ·)

def read (s : Text) : Except Error Octets :=
  let octets := Utf8.encode (Text.trim Unicode.isWhiteSpace s)
  if octets.length % 2 = 0 then readPairs 0 octets else .error (.oddLength octets.length)

end Hex
end MemberNames
