import MemberNames.Text.Basic

/-!
# UTF-8

A character is one to four octets: the lead octet tells how many, and every further one carries
six bits. Reading accepts the shortest form of a scalar value and nothing else.

* `Utf8.encode`: the octets of a text
* `Utf8.decode?`: the text whose octets are given, if there is one
-/

namespace MemberNames
namespace Utf8

/-! ## Writing -/

/-- A continuation octet with six bits of payload. -/
def tailOctet (bits : Nat) : UInt8 :=
  UInt8.ofNat (0x80 + bits % 64)

def encodeChar (c : Char) : Octets :=
  let n := c.toNat
  if n < 0x80 then [UInt8.ofNat n]
  else if n < 0x800 then [UInt8.ofNat (0xC0 + n / 64), tailOctet n]
  else if n < 0x10000 then [UInt8.ofNat (0xE0 + n / 4096), tailOctet (n / 64), tailOctet n]
  else
    [UInt8.ofNat (0xF0 + n / 262144), tailOctet (n / 4096), tailOctet (n / 64), tailOctet n]

def encode (s : Text) : Octets :=
  s.flatMap encodeChar

/-- The number of octets in the UTF-8 form of a text. -/
def size (s : Text) : Nat :=
  (encode s).length

/-! ## Reading -/

/-- The six bits that a continuation octet carries. -/
def tailBits? (b : UInt8) : Option Nat :=
  if 0x80 ≤ b.toNat ∧ b.toNat < 0xC0 then some (b.toNat - 0x80) else none

/-- The character of code `n`, provided that no shorter form could have carried it. -/
def scalar? (least n : Nat) : Option Char :=
  if least ≤ n ∧ n.isValidChar then some (Char.ofNat n) else none

def decode? : Octets → Option Text
  | [] => some []
  | a :: s =>
    if a.toNat < 0x80 then (decode? s).map (Char.ofNat a.toNat :: ·)
    else if a.toNat < 0xC0 then none
    else if a.toNat < 0xE0 then
      match s with
      | b :: s => do
        let x ← tailBits? b
        let c ← scalar? 0x80 ((a.toNat - 0xC0) * 64 + x)
        (decode? s).map (c :: ·)
      | _ => none
    else if a.toNat < 0xF0 then
      match s with
      | b :: b' :: s => do
        let x ← tailBits? b
        let y ← tailBits? b'
        let c ← scalar? 0x800 ((a.toNat - 0xE0) * 4096 + x * 64 + y)
        (decode? s).map (c :: ·)
      | _ => none
    else if a.toNat < 0xF8 then
      match s with
      | b :: b' :: b'' :: s => do
        let x ← tailBits? b
        let y ← tailBits? b'
        let z ← tailBits? b''
        let c ← scalar? 0x10000 ((a.toNat - 0xF0) * 262144 + x * 4096 + y * 64 + z)
        (decode? s).map (c :: ·)
      | _ => none
    else none

end Utf8
end MemberNames
