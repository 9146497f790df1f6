import MemberNames.Proofs.Country
import MemberNames.Rules.Config

/-!
# What configured rules accept

A configuration has rules exactly if each country code it adds is a pair of letters, and otherwise
the first one that is not tells why. No rules that a deployment can choose therefore accept a
country code that is anything else.

* `RulesConfig.intoRules_eq_ok_iff`, `RulesConfig.intoRules_eq_error_iff`: the rules of a
  configuration, or the code for which it has none
* `Rules.IsDeployable`: the rules that a deployment can have
* `Rules.IsDeployable.isLetterPair`: the country codes that such rules accept
-/

namespace MemberNames

open CountrySet (IsLetterPair)

namespace RulesConfig

/-- Two octets that are letters are two letters. -/
theorem isWellFormedCode_iff {code : Text} : isWellFormedCode code ↔ IsLetterPair code := by
  rw [isWellFormedCode, Bool.and_eq_true, decide_eq_true_eq, List.all_eq_true]
  constructor
  · rintro ⟨hSize, hUpper⟩
    have hLetters : ∀ c ∈ code, 'A' ≤ c ∧ c ≤ 'Z' := fun c hc => of_decide_eq_true (hUpper c hc)
    have hAscii : ∀ c ∈ code, c.toNat < 0x80 := by
      intro c hc
      have hLast : c.toNat ≤ 'Z'.toNat := (hLetters c hc).2
      exact Nat.lt_of_le_of_lt hLast (by decide)
    exact ⟨(Utf8.size_eq_length hAscii).symm.trans hSize, hLetters⟩
  · intro h
    exact ⟨h.size_eq, fun c hc => decide_eq_true (h.letters c hc)⟩

theorem intoRules_eq_ok_iff {config : RulesConfig} {rules : Rules} :
    config.intoRules = .ok rules ↔
      (∀ code ∈ config.extraCountryCodes, IsLetterPair code) ∧
        rules = ⟨.withAdditional config.extraCountryCodes, config.policy.policy⟩ := by
  simp only [← isWellFormedCode_iff]
  rw [intoRules]
  cases hFind : config.extraCountryCodes.find? (!isWellFormedCode ·) with
  | some code =>
      -- The reported code is one of the added ones and ill-formed.
      have hCode : isWellFormedCode code = false := by simpa using List.find?_some hFind
      constructor
      · intro h
        cases h
      · intro h
        rcases h with ⟨hAll, -⟩
        rw [hAll code (List.mem_of_find?_eq_some hFind)] at hCode
        cases hCode
  | none =>
      have hAll : ∀ code ∈ config.extraCountryCodes, isWellFormedCode code := by
        simpa using List.find?_eq_none.1 hFind
      constructor
      · intro h
        exact ⟨hAll, (Except.ok.inj h).symm⟩
      · intro h
        rcases h with ⟨-, rfl⟩
        rfl

/-- The reported code is the first one that is no pair of letters. -/
theorem intoRules_eq_error_iff {config : RulesConfig} {e : RulesConfigError} :
    config.intoRules = .error e ↔
      ∃ before code after, config.extraCountryCodes = before ++ code :: after ∧
        (∀ other ∈ before, IsLetterPair other) ∧ ¬ IsLetterPair code ∧
          e = .invalidExtraCountryCode code := by
  have hFirst : ∀ code, config.extraCountryCodes.find? (!isWellFormedCode ·) = some code ↔
      ∃ before after, config.extraCountryCodes = before ++ code :: after ∧
        (∀ other ∈ before, IsLetterPair other) ∧ ¬ IsLetterPair code := by
    intro code
    simp only [← isWellFormedCode_iff, List.find?_eq_some_iff_append]
    constructor
    · rintro ⟨hCode, before, after, hSplit, hBefore⟩
      exact ⟨before, after, hSplit, by simpa using hBefore, by simpa using hCode⟩
    · rintro ⟨before, after, hSplit, hBefore, hCode⟩
      exact ⟨by simpa using hCode, before, after, hSplit, by simpa using hBefore⟩
  rw [intoRules]
  constructor
  · intro h
    split at h
    · rename_i code hFind
      cases h
      rcases (hFirst code).1 hFind with ⟨before, after, hSplit, hBefore, hCode⟩
      exact ⟨before, code, after, hSplit, hBefore, hCode, rfl⟩
    · cases h
  · rintro ⟨before, code, after, hSplit, hBefore, hCode, rfl⟩
    rw [(hFirst code).2 ⟨before, after, hSplit, hBefore, hCode⟩]

theorem contains_of_intoRules {config : RulesConfig} {rules : Rules}
    (h : config.intoRules = .ok rules) (code : Text) :
    rules.countries.contains code ↔
      (∃ assigned ∈ isoCountryCodes, assigned.toList = code) ∨ code = unspecifiedCountry ∨
        code ∈ config.extraCountryCodes := by
  rcases intoRules_eq_ok_iff.1 h with ⟨-, rfl⟩
  rw [CountrySet.contains_iff, CountrySet.mem_withAdditional_iff]
  exact or_left_comm

end RulesConfig

namespace Rules

/-- The rules that a deployment can have: the standard ones, or those of a configuration. -/
def IsDeployable (rules : Rules) : Prop :=
  rules = standard ∨ ∃ config : RulesConfig, config.intoRules = .ok rules

/-- Deployable rules accept no country code but pairs of letters. -/
theorem IsDeployable.isLetterPair {rules : Rules} (h : rules.IsDeployable) {code : Text}
    (hCode : rules.countries.contains code) : IsLetterPair code := by
  rcases h with rfl | ⟨config, hConfig⟩
  · exact CountrySet.isLetterPair_of_contains_iso hCode
  · rcases RulesConfig.intoRules_eq_ok_iff.1 hConfig with ⟨hAll, rfl⟩
    rcases CountrySet.contains_withAdditional_iff.1 hCode with hIso | hAdded
    · exact CountrySet.isLetterPair_of_contains_iso hIso
    · exact hAll code hAdded

theorem IsDeployable.size_country {rules : Rules} (h : rules.IsDeployable) {code : Text}
    (hCode : rules.countries.contains code) : Utf8.size code = 2 :=
  (h.isLetterPair hCode).size_eq

end Rules
end MemberNames
