import MemberNames.Organisation
import Mathlib.Logic.Basic

/-!
# Foreign letters in legal names

The policy for legal names tells Latin letters by the blocks that they stand in. Some of these
blocks hold letters of other scripts, mostly small capitals and modifier letters of Greek and
Cyrillic: the policy overlooks these, and refuses every other foreign letter.

* `Unicode.latinScriptRanges`: the script Latin
* `OrganisationPolicy.isOverlooked_eq`: the foreign letters of the Latin blocks
* `OrganisationPolicy.legalName_eq_ok_iff`: what passes
* `OrganisationPolicy.legalName_refuses_iff`: what is refused
-/

namespace MemberNames

/-! ## Scripts -/

namespace Unicode

/-- The code points with the property Script = Latin (version 17.0). -/
def latinScriptRanges : List (Nat × Nat) := [
  (0x41, 0x5A), (0x61, 0x7A), (0xAA, 0xAA), (0xBA, 0xBA), (0xC0, 0xD6), (0xD8, 0xF6), (0xF8, 0x2B8),
  (0x2E0, 0x2E4), (0x1D00, 0x1D25), (0x1D2C, 0x1D5C), (0x1D62, 0x1D65), (0x1D6B, 0x1D77),
  (0x1D79, 0x1DBE), (0x1E00, 0x1EFF), (0x2071, 0x2071), (0x207F, 0x207F), (0x2090, 0x209C),
  (0x212A, 0x212B), (0x2132, 0x2132), (0x214E, 0x214E), (0x2160, 0x2188), (0x2C60, 0x2C7F),
  (0xA722, 0xA787), (0xA78B, 0xA7DC), (0xA7F1, 0xA7FF), (0xAB30, 0xAB5A), (0xAB5C, 0xAB64),
  (0xAB66, 0xAB69), (0xFB00, 0xFB06), (0xFF21, 0xFF3A), (0xFF41, 0xFF5A), (0x10780, 0x10785),
  (0x10787, 0x107B0), (0x107B2, 0x107BA), (0x1DF00, 0x1DF1E), (0x1DF25, 0x1DF2A)
]

/-- Whether the character belongs to the script Latin. -/
def isLatinScript (c : Char) : Bool :=
  covers latinScriptRanges c.toNat

/-! ## Ranges as wholes -/

theorem exists_mem_of_covers {ranges : List (Nat × Nat)} {n : Nat} (h : covers ranges n) :
    ∃ range ∈ ranges, range.1 ≤ n ∧ n ≤ range.2 := by
  induction ranges with
  | nil =>
      cases h
  | cons range ranges ih =>
      rw [covers] at h
      split at h
      · cases h
      · rename_i hFirst
        rw [Bool.or_eq_true, decide_eq_true_eq] at h
        rcases h with hLast | hRest
        · exact ⟨range, List.mem_cons_self, Nat.le_of_not_lt hFirst, hLast⟩
        · rcases ih hRest with ⟨range', hMem, hBounds⟩
          exact ⟨range', List.mem_cons_of_mem _ hMem, hBounds⟩

/-- The answer of `covers` for all code points from `first` to `last`, unless one of the ranges
begins or ends among them. -/
def coversAll? : List (Nat × Nat) → Nat → Nat → Option Bool
  | [], _, _ => some false
  | (a, b) :: ranges, first, last =>
    if last < a then some false
    else if first < a then none
    else if b < first then coversAll? ranges first last
    else if last ≤ b then some true
    else none

theorem covers_of_coversAll? {ranges : List (Nat × Nat)} {first last n : Nat} {answer : Bool}
    (h : coversAll? ranges first last = some answer) (hFirst : first ≤ n) (hLast : n ≤ last) :
    covers ranges n = answer := by
  induction ranges with
  | nil =>
      exact Option.some.inj h
  | cons range ranges ih =>
      rw [coversAll?] at h
      rw [covers]
      split at h
      · -- The range is above, and so are all that follow.
        rw [if_pos (by omega)]
        exact Option.some.inj h
      split at h
      · cases h
      rw [if_neg (by omega)]
      split at h
      · rw [ih h, decide_eq_false (by omega), Bool.false_or]
      split at h
      · rw [decide_eq_true (by omega), Bool.true_or]
        exact Option.some.inj h
      · cases h

/-- Whether the ranges together hold all code points from `first` to `last`. A range that holds the
first one is taken, and the search goes on behind it. -/
def fills (ranges : List (Nat × Nat)) (last : Nat) : Nat → Nat → Bool
  | 0, first => last < first
  | steps + 1, first =>
    if last < first then true
    else
      match ranges.find? fun range => range.1 ≤ first && first ≤ range.2 with
      | some range => fills ranges last steps (range.2 + 1)
      | none => false

theorem exists_mem_of_fills {ranges : List (Nat × Nat)} {steps first last n : Nat}
    (h : fills ranges last steps first) (hFirst : first ≤ n) (hLast : n ≤ last) :
    ∃ range ∈ ranges, range.1 ≤ n ∧ n ≤ range.2 := by
  induction steps generalizing first with
  | zero =>
      rw [fills, decide_eq_true_eq] at h
      omega
  | succ steps ih =>
      rw [fills, if_neg (by omega)] at h
      split at h
      · rename_i range hFound
        have hHolds := List.find?_some hFound
        rw [Bool.and_eq_true, decide_eq_true_eq, decide_eq_true_eq] at hHolds
        by_cases hEnd : n ≤ range.2
        · exact ⟨range, List.mem_of_find?_eq_some hFound, by omega, hEnd⟩
        · exact ih h (by omega)
      · cases h

end Unicode

namespace OrganisationPolicy

/-! ## Foreign letters -/

/-- Whether the character is alphabetic and belongs to another script than Latin. -/
def isForeign (c : Char) : Bool :=
  Unicode.isAlphabetic c && !Unicode.isLatinScript c

/-- Letters of other scripts in the Latin blocks: small capitals of Greek with one of Cyrillic,
superscripts and subscripts of Greek, a superscript of Cyrillic, a low circumflex that no script has
to itself, and the small capital omega. -/
def overlookedRanges : List (Nat × Nat) := [
  (0x1D26, 0x1D2B), (0x1D5D, 0x1D61), (0x1D66, 0x1D6A), (0x1D78, 0x1D78), (0xA788, 0xA788),
  (0xAB65, 0xAB65)
]

def isOverlooked (c : Char) : Bool :=
  Unicode.covers overlookedRanges c.toNat

/-- What else there is in the Latin blocks: tone marks and unassigned code points. -/
def unletteredRanges : List (Nat × Nat) := [
  (0xA720, 0xA721), (0xA789, 0xA78A), (0xA7DD, 0xA7F0), (0xAB5B, 0xAB5B), (0xAB6A, 0xAB6F)
]

/-- The Latin blocks hold these and letters of the script Latin, and nothing else. -/
theorem fills_latinRanges : ∀ block ∈ latinRanges,
    Unicode.fills (Unicode.latinScriptRanges ++ overlookedRanges ++ unletteredRanges)
      block.2 10 block.1 := by
  decide +kernel

theorem isLatinScript_of_mem {range : Nat × Nat} (h : range ∈ Unicode.latinScriptRanges) {c : Char}
    (hFirst : range.1 ≤ c.toNat) (hLast : c.toNat ≤ range.2) : Unicode.isLatinScript c = true := by
  have hAll : ∀ range ∈ Unicode.latinScriptRanges,
      Unicode.coversAll? Unicode.latinScriptRanges range.1 range.2 = some true := by
    decide +kernel
  exact Unicode.covers_of_coversAll? (hAll range h) hFirst hLast

theorem isAlphabetic_of_mem_unletteredRanges {range : Nat × Nat} (h : range ∈ unletteredRanges)
    {c : Char} (hFirst : range.1 ≤ c.toNat) (hLast : c.toNat ≤ range.2) :
    Unicode.isAlphabetic c = false := by
  have hAll : ∀ range ∈ unletteredRanges,
      Unicode.coversAll? Unicode.alphabeticRanges range.1 range.2 = some false := by
    decide +kernel
  exact Unicode.covers_of_coversAll? (hAll range h) hFirst hLast

theorem of_mem_overlookedRanges {range : Nat × Nat} (h : range ∈ overlookedRanges) {c : Char}
    (hFirst : range.1 ≤ c.toNat) (hLast : c.toNat ≤ range.2) :
    isOverlooked c = true ∧ isForeign c = true ∧ isLatinLetter c = true := by
  have hAll : ∀ range ∈ overlookedRanges,
      Unicode.coversAll? overlookedRanges range.1 range.2 = some true ∧
        Unicode.coversAll? Unicode.alphabeticRanges range.1 range.2 = some true ∧
          Unicode.coversAll? Unicode.latinScriptRanges range.1 range.2 = some false ∧
            Unicode.coversAll? latinRanges range.1 range.2 = some true := by
    decide +kernel
  rcases hAll range h with ⟨hOverlooked, hAlphabetic, hScript, hBlock⟩
  have hc : Unicode.isAlphabetic c = true :=
    Unicode.covers_of_coversAll? hAlphabetic hFirst hLast
  have hOther : Unicode.isLatinScript c = false :=
    Unicode.covers_of_coversAll? hScript hFirst hLast
  refine ⟨Unicode.covers_of_coversAll? hOverlooked hFirst hLast, ?_,
    Unicode.covers_of_coversAll? hBlock hFirst hLast⟩
  rw [isForeign, hc, hOther]
  rfl

/-- The letters that are overlooked are the foreign ones of the Latin blocks. -/
theorem isOverlooked_eq (c : Char) : isOverlooked c = (isForeign c && isLatinLetter c) := by
  rw [Bool.eq_iff_iff, Bool.and_eq_true]
  constructor
  · intro h
    rcases Unicode.exists_mem_of_covers h with ⟨range, hRange, hFirst, hLast⟩
    exact (of_mem_overlookedRanges hRange hFirst hLast).2
  · rintro ⟨hForeign, hBlock⟩
    rw [isForeign, Bool.and_eq_true, Bool.not_eq_true'] at hForeign
    rcases Unicode.exists_mem_of_covers hBlock with ⟨block, hMem, hFirst, hLast⟩
    rcases Unicode.exists_mem_of_fills (fills_latinRanges block hMem) hFirst hLast with
      ⟨range, hRange, hFirst, hLast⟩
    rw [List.mem_append, List.mem_append] at hRange
    rcases hRange with (hScript | hOverlooked) | hUnlettered
    · have hLatin := isLatinScript_of_mem hScript hFirst hLast
      rw [hForeign.2] at hLatin
      cases hLatin
    · exact (of_mem_overlookedRanges hOverlooked hFirst hLast).1
    · have hLetter := isAlphabetic_of_mem_unletteredRanges hUnlettered hFirst hLast
      rw [hForeign.1] at hLetter
      cases hLetter

/-! ## Legal names -/

/-- What is asked of a legal name besides that no letter is foreign. Letters of the script Latin
have to stand in the Latin blocks. -/
structure IsTidy (value : Text) : Prop where
  control : ∀ c ∈ value, Unicode.isControl c = false
  surroundingWhiteSpace : hasSurroundingWhiteSpace value = false
  doubleSpace : hasDoubleSpace value = false
  latin : ∀ c ∈ value, Unicode.isAlphabetic c → Unicode.isLatinScript c → isLatinLetter c
  letters : 2 ≤ value.countP Unicode.isAlphabetic

/-- No letter stands outside the Latin blocks: those of the script Latin stand in them, and the
others are overlooked. -/
theorem find?_outside_eq_none_iff {value : Text} :
    value.find? (fun c => Unicode.isAlphabetic c && !isLatinLetter c) = none ↔
      (∀ c ∈ value, Unicode.isAlphabetic c → Unicode.isLatinScript c → isLatinLetter c) ∧
        ∀ c ∈ value, isForeign c → isOverlooked c := by
  rw [List.find?_eq_none, ← forall₂_and]
  refine forall₂_congr fun c _ => ?_
  rw [isOverlooked_eq, isForeign]
  cases Unicode.isAlphabetic c <;> cases Unicode.isLatinScript c <;> simp

theorem legalName_eq_ok_iff {value : Text} :
    legalName value = .ok () ↔ IsTidy value ∧ ∀ c ∈ value, isForeign c → isOverlooked c := by
  constructor
  · intro h
    simp only [legalName] at h
    -- Each check that refuses is passed in turn.
    split at h
    · cases h
    rename_i hControl
    split at h
    · cases h
    rename_i hSurrounding
    split at h
    · cases h
    rename_i hDouble
    split at h
    · cases h
    rename_i hBlocks
    split at h
    · cases h
    rename_i hCount
    rcases find?_outside_eq_none_iff.1 hBlocks with ⟨hLatin, hForeign⟩
    refine ⟨⟨?_, Bool.of_not_eq_true hSurrounding, Bool.of_not_eq_true hDouble, hLatin,
      Nat.le_of_not_lt hCount⟩, hForeign⟩
    intro c hc
    exact Bool.of_not_eq_true (List.find?_eq_none.1 hControl c hc)
  · rintro ⟨hTidy, hForeign⟩
    have hControl : value.find? Unicode.isControl = none :=
      List.find?_eq_none.2 fun c hc => Bool.not_eq_true _ ▸ hTidy.control c hc
    have hBlocks := find?_outside_eq_none_iff.2 ⟨hTidy.latin, hForeign⟩
    simp only [legalName, hControl, hBlocks, hTidy.surroundingWhiteSpace, hTidy.doubleSpace,
      if_neg (Nat.not_lt.2 hTidy.letters)]
    rfl

/-- A text is refused exactly if it has a foreign letter that is not overlooked, or if it is not
tidy for another reason. Overlooked are the foreign letters of the Latin blocks and no others, so
that a tidy text is refused for a foreign letter unless all its foreign letters are in these
blocks. -/
theorem legalName_refuses_iff (value : Text) :
    ((∃ e, legalName value = .error e) ↔
      (∃ c ∈ value, isForeign c ∧ ¬ isOverlooked c) ∨ ¬ IsTidy value) ∧
    ∀ c, isOverlooked c = (isForeign c && isLatinLetter c) := by
  refine ⟨?_, isOverlooked_eq⟩
  have hRefused : (∃ e, legalName value = .error e) ↔ ¬ legalName value = .ok () := by
    cases legalName value with
    | ok u => simp
    | error e => simp
  have hForeign : (¬ ∀ c ∈ value, isForeign c → isOverlooked c) ↔
      ∃ c ∈ value, isForeign c ∧ ¬ isOverlooked c := by
    simp only [not_forall, exists_prop]
  rw [hRefused, legalName_eq_ok_iff, not_and_or, hForeign, or_comm]

/-- A small capital of Cyrillic passes for a Latin letter. -/
theorem legalName_small_capital :
    (∃ c ∈ ['B', 'ᴫ'], isForeign c) ∧ legalName ['B', 'ᴫ'] = .ok () := by
  have hForeign : isForeign 'ᴫ' = true := by decide +kernel
  have hOverlooked : isOverlooked 'ᴫ' = true := by decide
  have hLatin : isForeign 'B' = false := by decide +kernel
  have hTidy : IsTidy ['B', 'ᴫ'] :=
    { control := List.forall_mem_cons.2 ⟨rfl, List.forall_mem_singleton.2 rfl⟩
      surroundingWhiteSpace := by decide
      doubleSpace := by decide
      latin := List.forall_mem_cons.2
        ⟨fun _ _ => rfl, List.forall_mem_singleton.2 fun _ _ => rfl⟩
      letters := by decide +kernel }
  refine ⟨⟨'ᴫ', List.mem_cons_of_mem _ (List.mem_singleton_self _), hForeign⟩, ?_⟩
  refine legalName_eq_ok_iff.2 ⟨hTidy, List.forall_mem_cons.2 ⟨?_, ?_⟩⟩
  · rw [hLatin]
    exact fun h => Bool.noConfusion h
  · exact List.forall_mem_singleton.2 fun _ => hOverlooked

end OrganisationPolicy
end MemberNames
