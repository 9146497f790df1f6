import MemberNames.Proofs.Result
import MemberNames.Proofs.Text.Hex

/-!
# Pasted hex, pair by pair

The reader takes the octets of a text in pairs and gives the offset of the first pair that is no
numeral. A numeral is two digits, or a plus sign and one digit, so that more is read than is hex:
the reader does what one that reads hex only would do exactly if the first pair that is not two
digits has no plus sign that passes for one.

* `Hex.unsigned`, `Hex.readPairs_eq_ok_iff`: what is read
* `Hex.IsFirstFault`, `Hex.readPairs_eq_error_iff`: where reading stops
* `Hex.ReadsHex`: what it is to read hex and nothing else
* `Hex.readsHex_read_iff`: what the reader does, and when it reads hex and nothing else
-/

namespace MemberNames
namespace Hex

/-! ## Pairs -/

/-- The characters of the pair at an offset. An octet above the ASCII range is a character that is
no digit. -/
def pairAt? (octets : Octets) (offset : Nat) : Option (Char × Char) :=
  match octets.drop offset with
  | high :: low :: _ => some (Char.ofUInt8 high, Char.ofUInt8 low)
  | _ => none

/-- Whether two digits stand at an offset. -/
def isDigits (octets : Octets) (offset : Nat) : Bool :=
  (pairAt? octets offset).any fun (high, low) => isDigit high && isDigit low

/-- Whether a plus sign and a digit stand at an offset. -/
def isSigned (octets : Octets) (offset : Nat) : Bool :=
  (pairAt? octets offset).any fun (high, low) => high == '+' && isDigit low

def isNumeral (octets : Octets) (offset : Nat) : Bool :=
  isDigits octets offset || isSigned octets offset

/-- A plus sign has the value of a zero. -/
theorem pair?_eq (high low : Char) :
    pair? high low = octet? (if high = '+' then '0' else high) low := by
  rw [pair?]
  split
  · have hZero : digit? '0' = some 0 := by decide
    cases hLow : digit? low <;> simp [octet?, hZero, hLow]
  · rfl

theorem isNumeral_zero (high low : UInt8) (s : Octets) :
    isNumeral (high :: low :: s) 0 = (pair? (Char.ofUInt8 high) (Char.ofUInt8 low)).isSome := by
  have hDigits : isDigits (high :: low :: s) 0 =
      (isDigit (Char.ofUInt8 high) && isDigit (Char.ofUInt8 low)) := rfl
  have hSigned : isSigned (high :: low :: s) 0 =
      (Char.ofUInt8 high == '+' && isDigit (Char.ofUInt8 low)) := rfl
  rw [isNumeral, hDigits, hSigned, pair?]
  split
  · rename_i hPlus
    rw [hPlus, Option.isSome_map]
    rfl
  · rename_i hPlus
    rw [beq_false_of_ne hPlus, Bool.false_and, Bool.or_false, Bool.eq_iff_iff, Bool.and_eq_true,
      octet?_isSome_iff]

/-! ## The first fault -/

/-- Whether an offset is that of the first pair that is not good. -/
structure IsFirstFault (good : Nat → Bool) (length offset : Nat) : Prop where
  even : offset % 2 = 0
  lt : offset < length
  fault : good offset = false
  before : ∀ i < offset, i % 2 = 0 → good i

variable {good : Nat → Bool} {length offset : Nat}

theorem exists_isFirstFault (hEven : offset % 2 = 0) (hLt : offset < length)
    (hFault : good offset = false) : ∃ i ≤ offset, IsFirstFault good length i := by
  induction offset using Nat.strongRecOn with
  | ind offset ih =>
      by_cases hBefore : ∀ i < offset, i % 2 = 0 → good i
      · exact ⟨offset, Nat.le_refl _, hEven, hLt, hFault, hBefore⟩
      · simp only [not_forall, Bool.not_eq_true] at hBefore
        rcases hBefore with ⟨i, hi, hiEven, hiFault⟩
        rcases ih i hi hiEven (Nat.lt_trans hi hLt) hiFault with ⟨j, hj, hFirst⟩
        exact ⟨j, Nat.le_trans hj (Nat.le_of_lt hi), hFirst⟩

/-- Behind a good pair, offsets count from its end. -/
theorem isFirstFault_add_two_iff (h : good 0) :
    IsFirstFault good (length + 2) (offset + 2) ↔
      IsFirstFault (fun i => good (i + 2)) length offset := by
  constructor
  · intro hFirst
    have hEven := hFirst.even
    refine ⟨by omega, Nat.lt_of_add_lt_add_right hFirst.lt, hFirst.fault, ?_⟩
    intro i hi hiEven
    exact hFirst.before (i + 2) (by omega) (by omega)
  · intro hFirst
    have hEven := hFirst.even
    refine ⟨by omega, Nat.add_lt_add_right hFirst.lt 2, hFirst.fault, ?_⟩
    intro i hi hiEven
    match i with
    | 0 => exact h
    | 1 => omega
    | i + 2 => exact hFirst.before i (by omega) (by omega)

theorem exists_add_two_of_isFirstFault (h : good 0) (hFirst : IsFirstFault good length offset) :
    ∃ i, offset = i + 2 := by
  have hEven := hFirst.even
  have hFault := hFirst.fault
  match offset with
  | 0 => exact absurd (h.symm.trans hFault) (by decide)
  | 1 => omega
  | i + 2 => exact ⟨i, rfl⟩

theorem readPairs_eq_error_iff {octets : Octets} {start : Nat} {e : Error}
    (hEven : octets.length % 2 = 0) :
    readPairs start octets = .error e ↔
      ∃ i, e = .invalidPair (start + i) ∧ IsFirstFault (isNumeral octets) octets.length i := by
  fun_induction readPairs start octets with
  | case1 start =>
      constructor
      · intro h
        cases h
      · rintro ⟨i, -, hFirst⟩
        exact absurd hFirst.lt (Nat.not_lt_zero i)
  | case2 start b =>
      cases hEven
  | case3 start high low s hPair =>
      have hFault : isNumeral (high :: low :: s) 0 = false := by
        rw [isNumeral_zero, hPair]
        rfl
      constructor
      · intro h
        cases h
        exact ⟨0, rfl, rfl, Nat.succ_pos _, hFault, fun i hi => absurd hi (Nat.not_lt_zero i)⟩
      · rintro ⟨i, rfl, hFirst⟩
        -- The pair at the front is the first fault, so that no later one is.
        rcases Nat.eq_zero_or_pos i with rfl | hi
        · rfl
        · exact absurd (hFirst.before 0 hi rfl) (by rw [hFault]; decide)
  | case4 start high low s b hPair ih =>
      have hGood : isNumeral (high :: low :: s) 0 = true := by
        rw [isNumeral_zero, hPair]
        rfl
      have hTail : s.length % 2 = 0 := by
        rw [List.length_cons, List.length_cons] at hEven
        omega
      rw [Result.map_eq_error_iff, ih hTail]
      constructor
      · rintro ⟨i, rfl, hFirst⟩
        refine ⟨i + 2, congrArg Error.invalidPair (by omega), ?_⟩
        exact (isFirstFault_add_two_iff hGood).2 hFirst
      · rintro ⟨i, rfl, hFirst⟩
        rcases exists_add_two_of_isFirstFault hGood hFirst with ⟨i, rfl⟩
        refine ⟨i, congrArg Error.invalidPair (by omega), ?_⟩
        exact (isFirstFault_add_two_iff hGood).1 hFirst

/-! ## What is read -/

/-- The text with a zero for each plus sign that stands first in a pair. -/
def unsigned : Text → Text
  | [] => []
  | [c] => [c]
  | high :: low :: s => (if high = '+' then '0' else high) :: low :: unsigned s

theorem readPairs_eq_ok_iff {octets : Octets} {start : Nat} {bs : Octets}
    (hEven : octets.length % 2 = 0) :
    readPairs start octets = .ok bs ↔ decode? (unsigned (octets.map Char.ofUInt8)) = some bs := by
  fun_induction readPairs start octets generalizing bs with
  | case1 start =>
      simp [unsigned, decode?]
  | case2 start b =>
      cases hEven
  | case3 start high low s hPair =>
      rw [pair?_eq] at hPair
      simp [unsigned, decode?, hPair]
  | case4 start high low s b hPair ih =>
      have hTail : s.length % 2 = 0 := by
        rw [List.length_cons, List.length_cons] at hEven
        omega
      rw [pair?_eq] at hPair
      simp only [List.map_cons, unsigned, decode?, hPair, Option.bind_eq_bind, Option.bind_some]
      rw [Result.map_eq_ok_iff, Option.map_eq_some_iff]
      exact exists_congr fun bs' => and_congr (ih hTail) Iff.rfl

theorem length_unsigned (s : Text) : (unsigned s).length = s.length := by
  fun_induction unsigned s with
  | case1 | case2 =>
      rfl
  | case3 high low s ih =>
      rw [List.length_cons, List.length_cons, ih, List.length_cons, List.length_cons]

theorem mem_unsigned_or_eq {s : Text} {c : Char} (h : c ∈ s) : c ∈ unsigned s ∨ c = '+' := by
  fun_induction unsigned s with
  | case1 | case2 =>
      exact .inl h
  | case3 high low s ih =>
      rcases List.mem_cons.1 h with rfl | hTail
      · split
        · rename_i hPlus
          exact .inr hPlus
        · exact .inl List.mem_cons_self
      · rcases List.mem_cons.1 hTail with rfl | hRest
        · exact .inl (List.mem_cons_of_mem _ List.mem_cons_self)
        · exact (ih hRest).imp_left fun hMem =>
            List.mem_cons_of_mem _ (List.mem_cons_of_mem _ hMem)

theorem unsigned_eq_self {s : Text} (h : ∀ c ∈ s, isDigit c) : unsigned s = s := by
  fun_induction unsigned s with
  | case1 | case2 =>
      rfl
  | case3 high low s ih =>
      rcases List.forall_mem_cons.1 h with ⟨hHigh, hTail⟩
      have hPlus : high ≠ '+' := by
        rintro rfl
        cases hHigh
      rw [if_neg hPlus, ih (List.forall_mem_cons.1 hTail).2]

/-- Whatever spells octets is ASCII. -/
theorem toNat_lt_of_lower_unsigned {s : Text} {bs : Octets}
    (h : Text.lower (unsigned s) = encode bs) : ∀ c ∈ s, c.toNat < 0x80 := by
  intro c hc
  rcases mem_unsigned_or_eq hc with hMem | rfl
  · have hBounds := toNat_bounds_of_isDigit (isDigit_of_lower_eq h hMem)
    omega
  · decide

theorem readPairs_encode_eq_ok_iff {s : Text} {start : Nat} {bs : Octets}
    (hEven : (Utf8.encode s).length % 2 = 0) :
    readPairs start (Utf8.encode s) = .ok bs ↔ Text.lower (unsigned s) = encode bs := by
  rw [readPairs_eq_ok_iff hEven, decode?_eq_some_iff]
  by_cases hAscii : ∀ c ∈ s, c.toNat < 0x80
  · rw [Utf8.map_ofUInt8_encode hAscii]
  · refine iff_of_false ?_ ?_
    · intro h
      exact hAscii (Utf8.toNat_lt_of_map_ofUInt8 (toNat_lt_of_lower_unsigned h))
    · intro h
      exact hAscii (toNat_lt_of_lower_unsigned h)

/-! ## Reading -/

variable {text : Text}

theorem read_eq_ok_iff {bs : Octets} :
    read text = .ok bs ↔
      Text.lower (unsigned (Text.trim Unicode.isWhiteSpace text)) = encode bs := by
  simp only [read]
  split
  · rename_i hEven
    exact readPairs_encode_eq_ok_iff hEven
  · rename_i hOdd
    refine iff_of_false (by simp) ?_
    intro h
    -- Pairs of ASCII characters have as many octets as characters, so that their number is even.
    have hLength := length_even_of_lower_eq h
    have hSize := Utf8.size_eq_length (toNat_lt_of_lower_unsigned h)
    rw [length_unsigned, ← hSize] at hLength
    exact hOdd hLength

theorem read_eq_oddLength_iff {n : Nat} :
    read text = .error (.oddLength n) ↔
      n = Utf8.size (Text.trim Unicode.isWhiteSpace text) ∧ n % 2 = 1 := by
  simp only [read]
  split
  · rename_i hEven
    refine iff_of_false ?_ ?_
    · intro h
      rcases (readPairs_eq_error_iff hEven).1 h with ⟨i, hError, -⟩
      cases hError
    · rintro ⟨rfl, hOdd⟩
      rw [Utf8.size] at hOdd
      omega
  · rename_i hOdd
    rw [Except.error.injEq, Error.oddLength.injEq, Utf8.size]
    constructor
    · rintro rfl
      exact ⟨rfl, by omega⟩
    · rintro ⟨rfl, -⟩
      rfl

theorem read_eq_invalidPair_iff {i : Nat} :
    read text = .error (.invalidPair i) ↔
      let octets := Utf8.encode (Text.trim Unicode.isWhiteSpace text)
      octets.length % 2 = 0 ∧ IsFirstFault (isNumeral octets) octets.length i := by
  simp only [read]
  split
  · rename_i hEven
    rw [readPairs_eq_error_iff hEven, and_iff_right hEven]
    constructor
    · rintro ⟨j, hError, hFirst⟩
      cases hError
      rw [Nat.zero_add]
      exact hFirst
    · intro hFirst
      exact ⟨i, by rw [Nat.zero_add], hFirst⟩
  · rename_i hOdd
    exact iff_of_false (by simp) fun h => hOdd h.1

/-- White space around the digits and the case of letters do not matter. -/
theorem read_of_lower_eq {lead digits trail : Text} {octets : Octets}
    (hLead : ∀ c ∈ lead, Unicode.isWhiteSpace c) (hTrail : ∀ c ∈ trail, Unicode.isWhiteSpace c)
    (h : Text.lower digits = encode octets) : read (lead ++ digits ++ trail) = .ok octets := by
  have hDigit : ∀ c ∈ digits, isDigit c := fun c hc => isDigit_of_lower_eq h hc
  have hTrim : Text.trim Unicode.isWhiteSpace (lead ++ digits ++ trail) = digits :=
    Text.trim_eq_iff.2 ⟨lead, trail, rfl, hLead, hTrail,
      fun c hc => isWhiteSpace_of_isDigit (hDigit c (List.mem_of_head? hc)),
      fun c hc => isWhiteSpace_of_isDigit (hDigit c (List.mem_of_getLast? hc))⟩
  rw [read_eq_ok_iff, hTrim, unsigned_eq_self hDigit]
  exact h

/-! ## Hex and nothing else -/

/-- What a reader of hex and nothing else makes of a text without white space around it. -/
structure ReadsHex (s : Text) (result : Except Error Octets) : Prop where
  ok : ∀ bs, result = .ok bs ↔
    s.length % 2 = 0 ∧ (∀ c ∈ s, isDigit c) ∧ encode bs = Text.lower s
  oddLength : ∀ n, result = .error (.oddLength n) ↔ n = Utf8.size s ∧ n % 2 = 1
  invalidPair : ∀ i, result = .error (.invalidPair i) ↔
    Utf8.size s % 2 = 0 ∧ IsFirstFault (isDigits (Utf8.encode s)) (Utf8.size s) i

theorem spellsOctets_iff {s : Text} {bs : Octets} :
    (s.length % 2 = 0 ∧ (∀ c ∈ s, isDigit c) ∧ encode bs = Text.lower s) ↔
      Text.lower s = encode bs := by
  constructor
  · rintro ⟨-, -, h⟩
    exact h.symm
  · intro h
    exact ⟨length_even_of_lower_eq h, fun c hc => isDigit_of_lower_eq h hc, h.symm⟩

theorem isDigit_of_isDigits {octets : Octets}
    (h : ∀ i < octets.length, i % 2 = 0 → isDigits octets i) :
    ∀ c ∈ octets.map Char.ofUInt8, isDigit c := by
  match octets with
  | [] => exact List.forall_mem_nil _
  | [b] => cases h 0 Nat.one_pos rfl
  | high :: low :: s =>
      have hHead : isDigits (high :: low :: s) 0 := h 0 (Nat.succ_pos _) rfl
      have hBoth := (Bool.and_eq_true _ _).mp hHead
      have hTail : ∀ i < s.length, i % 2 = 0 → isDigits s i := by
        intro i hi hEven
        exact h (i + 2) (Nat.add_lt_add_right hi 2) (by omega)
      exact List.forall_mem_cons.2 ⟨hBoth.1, List.forall_mem_cons.2
        ⟨hBoth.2, isDigit_of_isDigits hTail⟩⟩

/-- If the first pair that is not two digits has no sign, then no sign is read. -/
theorem isDigits_of_isNumeral {octets : Octets}
    (hUnsigned : ∀ i, IsFirstFault (isDigits octets) octets.length i → isSigned octets i = false)
    {last : Nat} (hLast : last ≤ octets.length)
    (h : ∀ i < last, i % 2 = 0 → isNumeral octets i) :
    ∀ i < last, i % 2 = 0 → isDigits octets i := by
  intro i hi hEven
  by_contra hFault
  rcases exists_isFirstFault hEven (Nat.lt_of_lt_of_le hi hLast) (Bool.of_not_eq_true hFault) with
    ⟨j, hj, hFirst⟩
  have hNumeral := h j (Nat.lt_of_le_of_lt hj hi) hFirst.even
  rw [isNumeral, hFirst.fault, hUnsigned j hFirst] at hNumeral
  cases hNumeral

theorem isFirstFault_isNumeral_iff {octets : Octets}
    (hUnsigned : ∀ i, IsFirstFault (isDigits octets) octets.length i → isSigned octets i = false)
    {i : Nat} :
    IsFirstFault (isNumeral octets) octets.length i ↔
      IsFirstFault (isDigits octets) octets.length i := by
  constructor
  · intro h
    have hFault := (Bool.or_eq_false_iff.1 h.fault).1
    exact ⟨h.even, h.lt, hFault, isDigits_of_isNumeral hUnsigned (Nat.le_of_lt h.lt) h.before⟩
  · intro h
    have hFault : isNumeral octets i = false :=
      Bool.or_eq_false_iff.2 ⟨h.fault, hUnsigned i h⟩
    exact ⟨h.even, h.lt, hFault, fun j hj hEven =>
      (Bool.or_eq_true _ _).mpr (.inl (h.before j hj hEven))⟩

theorem length_even_of_read {bs : Octets} (h : read text = .ok bs) :
    (Utf8.encode (Text.trim Unicode.isWhiteSpace text)).length % 2 = 0 := by
  simp only [read] at h
  split at h
  · assumption
  · cases h

/-- A text that is read holds nothing but numerals. -/
theorem isNumeral_of_read {bs : Octets} (h : read text = .ok bs) :
    let octets := Utf8.encode (Text.trim Unicode.isWhiteSpace text)
    ∀ i < octets.length, i % 2 = 0 → isNumeral octets i := by
  intro octets i hi hEven
  by_contra hFault
  rcases exists_isFirstFault hEven hi (Bool.of_not_eq_true hFault) with ⟨j, -, hFirst⟩
  cases h.symm.trans (read_eq_invalidPair_iff.2 ⟨length_even_of_read h, hFirst⟩)

theorem readsHex_of_unsigned
    (hUnsigned :
      let octets := Utf8.encode (Text.trim Unicode.isWhiteSpace text)
      octets.length % 2 = 0 →
        ∀ i, IsFirstFault (isDigits octets) octets.length i → isSigned octets i = false) :
    ReadsHex (Text.trim Unicode.isWhiteSpace text) (read text) := by
  refine ⟨?_, fun n => read_eq_oddLength_iff, ?_⟩
  · intro bs
    rw [spellsOctets_iff]
    constructor
    · intro hRead
      have hSpelled := read_eq_ok_iff.1 hRead
      have hAscii := toNat_lt_of_lower_unsigned hSpelled
      -- Every pair is a numeral and none has a sign, so that all characters are digits.
      have hPairs := isDigits_of_isNumeral (hUnsigned (length_even_of_read hRead))
        (Nat.le_refl _) (isNumeral_of_read hRead)
      have hDigits := isDigit_of_isDigits hPairs
      rw [Utf8.map_ofUInt8_encode hAscii] at hDigits
      rw [unsigned_eq_self hDigits] at hSpelled
      exact hSpelled
    · intro hSpelled
      rw [read_eq_ok_iff, unsigned_eq_self fun c hc => isDigit_of_lower_eq hSpelled hc]
      exact hSpelled
  · intro i
    rw [read_eq_invalidPair_iff]
    exact and_congr_right fun hSize => isFirstFault_isNumeral_iff (hUnsigned hSize)

/-- A text is read as octets if it spells them once zeros stand for the plus signs in front of
pairs. Otherwise an odd number of octets is reported, or the offset of the first pair that is no
numeral. This is to read hex and nothing else exactly if the number of octets is odd or the first
pair that is not two digits, if there is one, is not a plus sign and a digit. -/
theorem readsHex_read_iff (text : Text) :
    let s := Text.trim Unicode.isWhiteSpace text
    let octets := Utf8.encode s
    (∀ bs, read text = .ok bs ↔ Text.lower (unsigned s) = encode bs) ∧
    (∀ n, read text = .error (.oddLength n) ↔ n = octets.length ∧ n % 2 = 1) ∧
    (∀ i, read text = .error (.invalidPair i) ↔
      octets.length % 2 = 0 ∧ IsFirstFault (isNumeral octets) octets.length i) ∧
    (ReadsHex s (read text) ↔
      (octets.length % 2 = 0 →
        ∀ i, IsFirstFault (isDigits octets) octets.length i → isSigned octets i = false)) := by
  intro s octets
  refine ⟨fun bs => read_eq_ok_iff, fun n => read_eq_oddLength_iff,
    fun i => read_eq_invalidPair_iff, ?_⟩
  constructor
  · intro hHex hSize i hFirst
    -- A reader of hex stops at the first pair that is not two digits.
    have hStop := (hHex.invalidPair i).2 ⟨hSize, hFirst⟩
    have hFault := (read_eq_invalidPair_iff.1 hStop).2.fault
    exact (Bool.or_eq_false_iff.1 hFault).2
  · exact readsHex_of_unsigned

/-- A plus sign and a digit are read as an octet. -/
theorem read_plus_sign :
    read ['+', 'f'] = .ok [0x0F] ∧
      ¬ ReadsHex (Text.trim Unicode.isWhiteSpace ['+', 'f']) (read ['+', 'f']) := by
  have hRead : read ['+', 'f'] = .ok [0x0F] := rfl
  refine ⟨hRead, ?_⟩
  intro hHex
  rcases (hHex.ok [0x0F]).1 hRead with ⟨-, hDigits, -⟩
  exact absurd (hDigits '+' (by decide)) (by decide)

end Hex
end MemberNames
