import MemberNames.Text.Hex

/-!
# DER elements

An element is a tag octet, a length and that many content octets. Lengths are definite and as
short as possible. Content is not looked into here.

* `Der.Element.toOctets`: an element in octets
* `Der.Element.ofOctets`: the one element that fills an octet string
* `Der.elements`: the elements that fill an octet string one after the other
-/

namespace MemberNames
namespace Der

/-- Why an octet string is not the expected DER encoding. -/
inductive Error where
  | truncated
  | unknownTag (octet : UInt8)
  | invalidLength
  | tooLong
  | trailingOctets
  | unexpectedTag (octet : UInt8)
  | invalidObjectId
  | invalidAttribute
  | duplicateElement
  deriving DecidableEq, Repr

def Error.message : Error → Text
  | .truncated => "element is incomplete".toList
  | .unknownTag octet => "unknown tag octet ".toList ++ Hex.encodeOctet octet
  | .invalidLength => "length is not in its shortest definite form".toList
  | .tooLong => "encoding is too long".toList
  | .trailingOctets => "trailing octets after the element".toList
  | .unexpectedTag octet => "unexpected tag octet ".toList ++ Hex.encodeOctet octet
  | .invalidObjectId => "invalid object identifier".toList
  | .invalidAttribute => "attribute is not a pair of type and value".toList
  | .duplicateElement => "set holds the same element twice".toList

/-! ## Tags -/

namespace Tag

def objectIdentifier : UInt8 := 0x06
def utf8String : UInt8 := 0x0C
def printableString : UInt8 := 0x13
def ia5String : UInt8 := 0x16
def sequence : UInt8 := 0x30
def set : UInt8 := 0x31

/-- The names of the universal tags that an element may have. -/
def universalNames : List (UInt8 × String) := [
  (0x01, "BOOLEAN"), (0x02, "INTEGER"), (0x03, "BIT STRING"), (0x04, "OCTET STRING"),
  (0x05, "NULL"), (0x06, "OBJECT IDENTIFIER"), (0x09, "REAL"), (0x0A, "ENUMERATED"),
  (0x0C, "UTF8String"), (0x12, "NumericString"), (0x13, "PrintableString"),
  (0x14, "TeletexString"), (0x15, "VideotexString"), (0x16, "IA5String"), (0x17, "UTCTime"),
  (0x18, "GeneralizedTime"), (0x1A, "VisibleString"), (0x1E, "BMPString"), (0x30, "SEQUENCE"),
  (0x31, "SET")
]

/-- The tag number in the low five bits. -/
def number (octet : UInt8) : Nat :=
  octet.toNat % 32

/-- Whether an element may start with the octet: a listed universal tag, or a tag of another class
whose number fits the octet. -/
def isKnown (octet : UInt8) : Bool :=
  (universalNames.lookup octet).isSome || (64 ≤ octet.toNat && number octet ≤ 30)

/-- The name of a class other than the universal one. -/
def className (octet : UInt8) : String :=
  if octet.toNat < 128 then "APPLICATION"
  else if octet.toNat < 192 then "CONTEXT-SPECIFIC"
  else "PRIVATE"

def name (octet : UInt8) : Text :=
  match universalNames.lookup octet with
  | some name => name.toList
  | none =>
    let form := if octet.toNat / 32 % 2 = 1 then "constructed" else "primitive"
    (className octet).toList ++ " [".toList ++ Text.decimal (number octet) ++ "] (".toList ++
      form.toList ++ [')']

end Tag

/-! ## Lengths -/

/-- The greatest length of an encoding. -/
def maxLength : Nat :=
  0x0FFFFFFF

/-- The big-endian octets of `n`, `count` of them. -/
def bigEndian : (count n : Nat) → Octets
  | 0, _ => []
  | count + 1, n => bigEndian count (n / 256) ++ [UInt8.ofNat (n % 256)]

/-- The shortest form of a length: one octet below 128, else a count of octets and the octets. -/
def lengthOctets (n : Nat) : Octets :=
  if n < 0x80 then [UInt8.ofNat n]
  else if n < 0x100 then 0x81 :: bigEndian 1 n
  else if n < 0x10000 then 0x82 :: bigEndian 2 n
  else if n < 0x1000000 then 0x83 :: bigEndian 3 n
  else 0x84 :: bigEndian 4 n

def ofBigEndian (octets : Octets) : Nat :=
  octets.foldl (fun n b => 256 * n + b.toNat) 0

/-- The length at the front of the octets, and what follows it. -/
def readLength : Octets → Except Error (Nat × Octets)
  | [] => .error .truncated
  | b :: s =>
    if b.toNat < 0x80 then .ok (b.toNat, s)
    else
      let count := b.toNat - 0x80
      if count = 0 ∨ 4 < count then .error .invalidLength
      else if s.length < count then .error .truncated
      else
        let n := ofBigEndian (s.take count)
        if lengthOctets n = b :: s.take count ∧ n ≤ maxLength then .ok (n, s.drop count)
        else .error .invalidLength

/-! ## Elements -/

/-- A tag octet and the content octets. -/
structure Element where
  tag : UInt8
  content : Octets
  deriving DecidableEq, Repr

def Element.toOctets (e : Element) : Octets :=
  e.tag :: lengthOctets e.content.length ++ e.content

/-- The element at the front of the octets, and what follows it. -/
def readElement : Octets → Except Error (Element × Octets)
  | [] => .error .truncated
  | tag :: s =>
    if Tag.isKnown tag then
      match readLength s with
      | .error e => .error e
      | .ok (n, s) =>
        if s.length < n then .error .truncated
        else .ok (⟨tag, s.take n⟩, s.drop n)
    else .error (.unknownTag tag)

/-- A length takes at least one octet. -/
theorem length_lt_of_readLength {s rest : Octets} {n : Nat} (h : readLength s = .ok (n, rest)) :
    rest.length < s.length := by
  cases s with
  | nil => simp [readLength] at h
  | cons b s =>
    simp only [readLength] at h
    split at h
    · simp only [Except.ok.injEq, Prod.mk.injEq] at h
      simp [← h.2]
    · split at h
      · exact absurd h (by simp)
      · split at h
        · exact absurd h (by simp)
        · split at h
          · simp only [Except.ok.injEq, Prod.mk.injEq] at h
            rw [← h.2, List.length_drop, List.length_cons]
            omega
          · exact absurd h (by simp)

/-- An element takes at least one octet, so that reading one after the other comes to an end. -/
theorem length_lt_of_readElement {s rest : Octets} {e : Element}
    (h : readElement s = .ok (e, rest)) : rest.length < s.length := by
  cases s with
  | nil => simp [readElement] at h
  | cons tag s =>
    simp only [readElement] at h
    split at h
    · split at h
      · cases h
      · rename_i n tail hLength
        have hTail := length_lt_of_readLength hLength
        split at h
        · exact absurd h (by simp)
        · simp only [Except.ok.injEq, Prod.mk.injEq] at h
          rw [← h.2, List.length_drop, List.length_cons]
          omega
    · cases h

/-- The one element that fills the octets, of which there are no more than the greatest length. -/
def Element.ofOctets (s : Octets) : Except Error Element :=
  if maxLength < s.length then .error .tooLong
  else
    match readElement s with
    | .error e => .error e
    | .ok (e, []) => .ok e
    | .ok (_, _ :: _) => .error .trailingOctets

/-- The elements that fill the octets one after the other. -/
def elements (s : Octets) : Except Error (List Element) :=
  match s with
  | [] => .ok []
  | b :: s =>
    match h : readElement (b :: s) with
    | .error e => .error e
    | .ok (e, rest) =>
      have := length_lt_of_readElement h
      (elements rest).map (e :: ·)
termination_by s.length
decreasing_by assumption

end Der
end MemberNames
