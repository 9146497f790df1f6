import MemberNames.Proofs.Text.Basic
import MemberNames.Proofs.Text.Utf8
import MemberNames.Text.Hex

/-!
# Hexadecimal text reads back

A text denotes octets exactly if it is what the octets are written as, up to the case of letters.

* `Hex.digit?_eq_some_iff`: the two spellings of a digit
* `Hex.decode?_eq_some_iff`: the spellings of an octet string
* `Hex.decode?_isSome_iff`: the texts that denote octets
* `Hex.isWhiteSpace_of_isDigit`: digits and the white space around them
-/

namespace MemberNames
namespace Hex

/-! ## Digits -/

theorem le_iff_toNat_le {c d : Char} : c ≤ d ↔ c.toNat ≤ d.toNat := by
  rw [Char.le_def, UInt32.le_iff_toNat_le]
  rfl

theorem digit?_eq_some_iff_toNat {c : Char} {n : Nat} :
    digit? c = some n ↔
      n < 10 ∧ c.toNat = 48 + n ∨ 10 ≤ n ∧ n < 16 ∧ (c.toNat = 87 + n ∨ c.toNat = 55 + n) := by
  simp only [digit?, le_iff_toNat_le, show '0'.toNat = 48 from rfl, show '9'.toNat = 57 from rfl,
    show 'a'.toNat = 97 from rfl, show 'f'.toNat = 102 from rfl, show 'A'.toNat = 65 from rfl,
    show 'F'.toNat = 70 from rfl]
  split
  · rw [Option.some.injEq]
    omega
  split
  · rw [Option.some.injEq]
    omega
  split
  · rw [Option.some.injEq]
    omega
  · simp only [reduceCtorEq, false_iff]
    omega

theorem digit?_lt {c : Char} {n : Nat} (h : digit? c = some n) : n < 16 := by
  have hc := digit?_eq_some_iff_toNat.1 h
  omega

theorem toNat_digitChar {n : Nat} (h : n < 16) :
    (Nat.digitChar n).toNat = if n < 10 then 48 + n else 87 + n := by
  have hAll : ∀ m < 16, (Nat.digitChar m).toNat = if m < 10 then 48 + m else 87 + m := by
    decide
  exact hAll n h

theorem toNat_toLower (c : Char) :
    c.toLower.toNat = if 65 ≤ c.toNat ∧ c.toNat ≤ 90 then c.toNat + 32 else c.toNat := by
  -- The library compares code units; here they are numbers.
  have hRange : c.val ≥ 'A'.val ∧ c.val ≤ 'Z'.val ↔ 65 ≤ c.toNat ∧ c.toNat ≤ 90 := by
    simp only [ge_iff_le, UInt32.le_iff_toNat_le]
    exact Iff.rfl
  by_cases h : c.val ≥ 'A'.val ∧ c.val ≤ 'Z'.val
  · have hLower : c.toLower.val = c.val + ('a'.val - 'A'.val) := congrArg Char.val (dif_pos h)
    have hSum : c.toLower.toNat = (c.val + ('a'.val - 'A'.val)).toNat :=
      congrArg UInt32.toNat hLower
    have hc : c.val.toNat = c.toNat := rfl
    have hShift : ('a'.val - 'A'.val).toNat = 32 := rfl
    have hUpper := (hRange.1 h).2
    rw [if_pos (hRange.1 h), hSum, UInt32.toNat_add]
    omega
  · have hSame : c.toLower = c := dif_neg h
    rw [if_neg (mt hRange.2 h), hSame]

/-- A digit is spelled in lower case or in upper case. -/
theorem digit?_eq_some_iff {c : Char} {n : Nat} (hn : n < 16) :
    digit? c = some n ↔ c.toLower = Nat.digitChar n := by
  rw [digit?_eq_some_iff_toNat, ← Char.toNat_inj, toNat_digitChar hn, toNat_toLower]
  split <;> split <;> omega

/-! ## Octets -/

theorem octet?_eq_some_iff {c d : Char} {b : UInt8} :
    octet? c d = some b ↔ [c.toLower, d.toLower] = encodeOctet b := by
  have hb := b.toNat_lt
  simp only [octet?, encodeOctet, Option.bind_eq_bind, Option.bind_eq_some_iff, Option.pure_def,
    Option.some.injEq, List.cons.injEq, and_true]
  constructor
  · intro h
    rcases h with ⟨high, hHigh, low, hLow, rfl⟩
    have hHighLt := digit?_lt hHigh
    have hLowLt := digit?_lt hLow
    have hValue : (UInt8.ofNat (16 * high + low)).toNat = 16 * high + low :=
      Utf8.toNat_ofNat_of_lt (by omega)
    rw [hValue, show (16 * high + low) / 16 = high by omega,
      show (16 * high + low) % 16 = low by omega]
    exact ⟨(digit?_eq_some_iff hHighLt).1 hHigh, (digit?_eq_some_iff hLowLt).1 hLow⟩
  · intro h
    rcases h with ⟨hHigh, hLow⟩
    -- The two halves of the octet are the digits.
    refine ⟨b.toNat / 16, (digit?_eq_some_iff (by omega)).2 hHigh, b.toNat % 16,
      (digit?_eq_some_iff (by omega)).2 hLow, ?_⟩
    rw [show 16 * (b.toNat / 16) + b.toNat % 16 = b.toNat by omega, UInt8.ofNat_toNat]

theorem decode?_eq_some_iff {s : Text} {bs : Octets} :
    decode? s = some bs ↔ Text.lower s = encode bs := by
  fun_induction decode? s generalizing bs with
  | case1 =>
      cases bs with
      | nil => simp [Text.lower, encode]
      | cons b bs => simp [Text.lower, encode, encodeOctet]
  | case2 c =>
      cases bs with
      | nil => simp [Text.lower, encode]
      | cons b bs => simp [Text.lower, encode, encodeOctet]
  | case3 c d s ih =>
      simp only [Option.bind_eq_bind, Option.bind_eq_some_iff, Option.map_eq_some_iff]
      constructor
      · intro h
        rcases h with ⟨b, hb, bs', hbs, rfl⟩
        have hHead := octet?_eq_some_iff.1 hb
        have hTail := ih.1 hbs
        calc
          Text.lower (c :: d :: s) = [c.toLower, d.toLower] ++ Text.lower s := rfl
          _ = encode (b :: bs') := by rw [hHead, hTail, encode, encode, List.flatMap_cons]
      · intro h
        -- Two characters of the text are one octet, so that both lists are cut at one place.
        cases bs with
        | nil => simp [Text.lower, encode] at h
        | cons b bs =>
            have hSplit : [c.toLower, d.toLower] ++ Text.lower s = encodeOctet b ++ encode bs := by
              rw [encode, List.flatMap_cons] at h
              exact h
            rcases List.append_inj hSplit rfl with ⟨hHead, hTail⟩
            exact ⟨b, octet?_eq_some_iff.2 hHead, bs, ih.2 hTail, rfl⟩

theorem octet?_isSome_iff {c d : Char} : (octet? c d).isSome ↔ isDigit c ∧ isDigit d := by
  simp only [octet?, isDigit, Option.isSome_iff_exists, Option.bind_eq_bind,
    Option.bind_eq_some_iff, Option.pure_def, Option.some.injEq]
  constructor
  · intro h
    rcases h with ⟨b, high, hHigh, low, hLow, -⟩
    exact ⟨⟨high, hHigh⟩, ⟨low, hLow⟩⟩
  · intro h
    rcases h with ⟨⟨high, hHigh⟩, ⟨low, hLow⟩⟩
    exact ⟨_, high, hHigh, low, hLow, rfl⟩

theorem isDigit_of_octet? {high low : Char} {b : UInt8} (h : octet? high low = some b) :
    ∀ c ∈ [high, low], isDigit c := by
  simpa using octet?_isSome_iff.1 (Option.isSome_of_eq_some h)

/-- Pairs of digits are what has octets at all. -/
theorem decode?_isSome_iff {s : Text} :
    (decode? s).isSome ↔ s.length % 2 = 0 ∧ s.all isDigit := by
  fun_induction decode? s with
  | case1 =>
      simp
  | case2 c =>
      simp
  | case3 c d s ih =>
      have hHead := octet?_isSome_iff (c := c) (d := d)
      have hTail : ((octet? c d).bind fun b => (decode? s).map (b :: ·)).isSome ↔
          (octet? c d).isSome ∧ (decode? s).isSome := by
        cases octet? c d <;> simp
      rw [Option.bind_eq_bind, hTail, hHead, ih]
      simp only [List.length_cons, List.all_cons, Bool.and_eq_true]
      constructor
      · intro h
        rcases h with ⟨⟨hc, hd⟩, hLength, hAll⟩
        exact ⟨by omega, hc, hd, hAll⟩
      · intro h
        rcases h with ⟨hLength, hc, hd, hAll⟩
        exact ⟨⟨hc, hd⟩, by omega, hAll⟩

variable {digits : Text} {octets : Octets}

theorem decode?_isSome_of_lower_eq (h : Text.lower digits = encode octets) :
    (decode? digits).isSome := by
  rw [decode?_eq_some_iff.2 h]
  rfl

theorem isDigit_of_lower_eq (h : Text.lower digits = encode octets) {c : Char} (hc : c ∈ digits) :
    isDigit c :=
  List.all_eq_true.1 (decode?_isSome_iff.1 (decode?_isSome_of_lower_eq h)).2 c hc

theorem length_even_of_lower_eq (h : Text.lower digits = encode octets) : digits.length % 2 = 0 :=
  (decode?_isSome_iff.1 (decode?_isSome_of_lower_eq h)).1

/-- Digits are written in lower case. -/
theorem lower_encode (octets : Octets) : Text.lower (encode octets) = encode octets := by
  have hLower : ∀ n < 16, (Nat.digitChar n).toLower = Nat.digitChar n := by decide
  induction octets with
  | nil =>
      rfl
  | cons b octets ih =>
      have hb := b.toNat_lt
      have hPair : (encodeOctet b).map Char.toLower = encodeOctet b := by
        simp only [encodeOctet, List.map_cons, List.map_nil]
        rw [hLower _ (by omega), hLower _ (by omega)]
      rw [Text.lower] at ih
      rw [Text.lower, encode, List.flatMap_cons, List.map_append, hPair, ← encode, ih]

/-! ## Digits among other characters -/

theorem toNat_bounds_of_isDigit {c : Char} (h : isDigit c) : 48 ≤ c.toNat ∧ c.toNat < 103 := by
  rcases Option.isSome_iff_exists.1 h with ⟨n, hn⟩
  have hc := digit?_eq_some_iff_toNat.1 hn
  omega

theorem toNat_lt_of_isDigit {s : Text} (h : ∀ c ∈ s, isDigit c) : ∀ c ∈ s, c.toNat < 0x80 := by
  intro c hc
  have hBound := (toNat_bounds_of_isDigit (h c hc)).2
  omega

theorem isWhiteSpace_of_isDigit {c : Char} (h : isDigit c) : Unicode.isWhiteSpace c = false := by
  have hAll : ∀ n < 103, 48 ≤ n → Unicode.covers Unicode.whiteSpaceRanges n = false := by decide
  exact hAll c.toNat (toNat_bounds_of_isDigit h).2 (toNat_bounds_of_isDigit h).1

end Hex
end MemberNames
