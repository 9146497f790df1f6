import MemberNames.Country
import MemberNames.Proofs.Text.Utf8

/-!
# Which country codes are accepted

A set of country codes accepts the assigned codes, the code of an unspecified country and the codes
that were added, in whatever order and how often these were given.

* `CountrySet.contains_withAdditional_iff`: membership
* `CountrySet.IsLetterPair`, `CountrySet.isLetterPair_of_contains_iso`: the form of assigned codes
-/

namespace MemberNames
namespace CountrySet

theorem mem_insertSorted_iff {code other : Text} {codes : List Text} :
    other ∈ insertSorted code codes ↔ other = code ∨ other ∈ codes := by
  fun_induction insertSorted code codes with
  | case1 =>
      simp
  | case2 first codes hLt =>
      exact List.mem_cons
  | case3 codes hLt =>
      simp
  | case4 first codes hLt hNe ih =>
      rw [List.mem_cons, List.mem_cons, ih]
      exact or_left_comm

theorem mem_withAdditional_iff {codes : List Text} {code : Text} :
    code ∈ (withAdditional codes).additional ↔ code ∈ codes := by
  rw [withAdditional]
  induction codes with
  | nil =>
      exact Iff.rfl
  | cons first codes ih =>
      rw [List.foldr_cons, mem_insertSorted_iff, ih, List.mem_cons]

theorem contains_iff {countries : CountrySet} {code : Text} :
    countries.contains code ↔
      code = unspecifiedCountry ∨ (∃ assigned ∈ isoCountryCodes, assigned.toList = code) ∨
        code ∈ countries.additional := by
  simp [contains, or_assoc]

theorem contains_withAdditional_iff {codes : List Text} {code : Text} :
    (withAdditional codes).contains code ↔ iso.contains code ∨ code ∈ codes := by
  rw [contains_iff, contains_iff, mem_withAdditional_iff]
  simp [iso, or_assoc]

/-! ## Letter pairs -/

/-- Exactly two upper-case letters of ASCII. -/
structure IsLetterPair (code : Text) : Prop where
  length : code.length = 2
  letters : ∀ c ∈ code, 'A' ≤ c ∧ c ≤ 'Z'

instance (code : Text) : Decidable (IsLetterPair code) :=
  -- Computed over the list: a quantifier over all characters would not be evaluated.
  decidable_of_iff (code.length = 2 ∧ code.all Char.isUpper)
    ⟨fun h => ⟨h.1, fun c hc => of_decide_eq_true (List.all_eq_true.1 h.2 c hc)⟩,
      fun h => ⟨h.length, List.all_eq_true.2 fun c hc => decide_eq_true (h.letters c hc)⟩⟩

theorem IsLetterPair.size_eq {code : Text} (h : IsLetterPair code) : Utf8.size code = 2 := by
  rw [Utf8.size_eq_length, h.length]
  intro c hc
  have hLast : c.toNat ≤ 'Z'.toNat := (h.letters c hc).2
  exact Nat.lt_of_le_of_lt hLast (by decide)

/-- Every assigned code, and the code of an unspecified country, is a pair of letters. -/
theorem isLetterPair_of_contains_iso {code : Text} (h : iso.contains code) :
    IsLetterPair code := by
  -- The assigned codes are a closed list, checked one by one.
  have hAssigned : ∀ assigned ∈ isoCountryCodes, IsLetterPair assigned.toList := by
    decide +kernel
  rcases contains_iff.1 h with rfl | ⟨assigned, hMem, rfl⟩ | hAdded
  · decide
  · exact hAssigned assigned hMem
  · cases hAdded

end CountrySet
end MemberNames
