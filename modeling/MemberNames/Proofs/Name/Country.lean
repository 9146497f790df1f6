import MemberNames.Proofs.Name.Canonical
import MemberNames.Proofs.Name.Principal
import MemberNames.Proofs.Rules.Comparison

/-!
# Country codes of accepted names

No check of a name looks at the form of its country code. Still the code is a pair of letters, by
whatever way the name was made, because deployable rules accept nothing else. Such a code is written
as it is wherever the name is written: without quotes as the last segment of the canonical text, and
as the one PrintableString of the principal form, which is written without a check of its
characters.

* `CountrySet.IsLetterPair.value_eq`, `CountrySet.IsLetterPair.isPrintableStringChar`: the letters
  in text and in a PrintableString
* `Name.HasPlainCountry`: a country code and the two places where it is written
* `Name.Source.configured_country`: configurations, their rules and the names that these accept
-/

namespace MemberNames

/-! ## Letters -/

namespace CountrySet
namespace IsLetterPair

variable {code : Text}

theorem isPrintableStringChar (h : IsLetterPair code) {c : Char} (hc : c ∈ code) :
    Escape.isPrintableStringChar c := by
  have hAlpha : c.isAlpha :=
    Bool.or_eq_true_iff.2 (.inl (decide_eq_true (h.letters c hc)))
  exact Bool.or_eq_true_iff.2 (.inl (AttributeType.isAlphanum_of_isAlpha hAlpha))

/-- A code of letters is written as it is. -/
theorem value_eq (h : IsLetterPair code) : Escape.value code = code := by
  have hMarks : [',', '+', '=', '\n', '<', '>', '#', ';', '\\', '"', ' '].all (!·.isUpper) := by
    decide
  refine Escape.value_of_plain ?_
  intro c hc
  have hUpper : c.isUpper := decide_eq_true (h.letters c hc)
  have hLetter : c ∉ [',', '+', '=', '\n', '<', '>', '#', ';', '\\', '"', ' '] := by
    intro hMem
    have hMark := List.all_eq_true.1 hMarks c hMem
    rw [hUpper] at hMark
    cases hMark
  simp only [List.mem_cons, List.not_mem_nil, or_false, not_or] at hLetter
  simp [Escape.isSpecial, Text.isPadding, hLetter]

end IsLetterPair
end CountrySet

namespace Name

open Der Principal

/-! ## Where the country code is written -/

/-- A country code of two letters that is written without quotes at the end of the canonical text
and as the one PrintableString of the principal form, in its first set. -/
structure HasPlainCountry (n : Name) : Prop where
  letters : CountrySet.IsLetterPair n.country
  canonical : ∃ segments,
    n.canonical = [',', ' '].intercalate (segments ++ ['C' :: '=' :: n.country])
  principal : ∃ der rest, n.toDer = .ok der ∧
    IsPrincipal der ([⟨Attribute.country.oid, Attribute.country.oid.toContents,
      ⟨Tag.printableString, Utf8.encode n.country⟩⟩] :: rest) ∧
    ∀ set ∈ rest, ∀ v ∈ set, v.value.tag ≠ Tag.printableString
  printable : ∀ c ∈ n.country, Escape.isPrintableStringChar c

/-- The country is the least significant attribute, and every name has it. -/
theorem exists_attributes_eq_concat (n : Name) :
    ∃ pairs, n.attributes = pairs ++ [(.country, n.country)] ∧
      ∀ pair ∈ pairs, pair.1 ≠ .country := by
  have hAll : Attribute.all =
      [.commonName, .organisationUnit, .organisation, .locality, .state] ++ [.country] :=
    rfl
  refine ⟨_, by rw [attributes, hAll, List.filterMap_append]; rfl, ?_⟩
  intro pair hPair hCountry
  rcases List.mem_filterMap.1 hPair with ⟨a, ha, hSome⟩
  rcases Option.map_eq_some_iff.1 hSome with ⟨v, -, rfl⟩
  rw [show a = Attribute.country from hCountry] at ha
  revert ha
  decide

theorem stringTag_ne_printableString {a : Attribute} (h : a ≠ .country) :
    stringTag a ≠ Tag.printableString := by
  cases a with
  | country => exact absurd rfl h
  | commonName | organisationUnit | organisation | locality | state => decide

theorem hasPlainCountry_of_satisfies {n : Name} {rules : Rules} (hRules : rules.IsDeployable)
    (h : n.Satisfies rules) : n.HasPlainCountry := by
  have hLetters : CountrySet.IsLetterPair n.country := hRules.isLetterPair h.country
  rcases n.exists_attributes_eq_concat with ⟨pairs, hPairs, hOthers⟩
  refine ⟨hLetters, ?_, ?_, fun c hc => hLetters.isPrintableStringChar hc⟩
  · have hSegment : segment (.country, n.country) = 'C' :: '=' :: n.country := by
      rw [segment, hLetters.value_eq]
      rfl
    have hSegments : n.attributes.map segment =
        pairs.map segment ++ ['C' :: '=' :: n.country] := by
      rw [hPairs, List.map_append, List.map_singleton, hSegment]
    refine ⟨pairs.map segment, ?_⟩
    rw [← hSegments]
    rfl
  · rcases exists_toDer_of_size_country h hLetters.size_eq with ⟨der, hDer⟩
    rcases toDer_eq_ok_iff.1 hDer with ⟨rfl, hLength⟩
    have hPrincipal := isPrincipal_principalElement hLength
    rw [hPairs, List.reverse_concat] at hPrincipal hDer
    refine ⟨_, _, hDer, hPrincipal, ?_⟩
    intro set hSet v hv
    rcases List.mem_map.1 hSet with ⟨w, hw, rfl⟩
    rcases List.mem_map.1 hw with ⟨pair, hPair, rfl⟩
    rcases List.mem_singleton.1 hv with rfl
    exact stringTag_ne_printableString (hOthers pair (List.mem_reverse.1 hPair))

/-! ## Configurations -/

namespace Source

/-- A configuration has rules exactly if all codes that it adds are letter pairs, and is refused for
the first one that is not. Its rules accept the assigned codes, the code of an unspecified country
and the added ones. Every name that these or the standard rules accept has a plain country. -/
theorem configured_country (config : RulesConfig) :
    ((∃ rules, config.intoRules = .ok rules) ↔
      ∀ code ∈ config.extraCountryCodes, CountrySet.IsLetterPair code) ∧
    (∀ e, config.intoRules = .error e ↔
      ∃ before code after, config.extraCountryCodes = before ++ code :: after ∧
        (∀ other ∈ before, CountrySet.IsLetterPair other) ∧ ¬ CountrySet.IsLetterPair code ∧
          e = .invalidExtraCountryCode code) ∧
    (∀ rules, config.intoRules = .ok rules → ∀ code,
      (rules.countries.contains code ↔
        (∃ assigned ∈ isoCountryCodes, assigned.toList = code) ∨ code = ['Z', 'Z'] ∨
          code ∈ config.extraCountryCodes)) ∧
    (∀ rules, rules = .standard ∨ config.intoRules = .ok rules → ∀ (source : Source) n,
      source.read rules = .ok n → n.HasPlainCountry) := by
  refine ⟨?_, fun e => RulesConfig.intoRules_eq_error_iff, ?_, ?_⟩
  · constructor
    · rintro ⟨rules, hRules⟩
      exact (RulesConfig.intoRules_eq_ok_iff.1 hRules).1
    · intro hAll
      exact ⟨_, RulesConfig.intoRules_eq_ok_iff.2 ⟨hAll, rfl⟩⟩
  · intro rules hRules code
    exact RulesConfig.contains_of_intoRules hRules code
  · intro rules hRules source n hRead
    have hDeployable : rules.IsDeployable := hRules.imp id fun hConfig => ⟨config, hConfig⟩
    rw [read_eq_bind] at hRead
    rcases Result.bind_eq_ok_iff.1 hRead with ⟨fields, -, hValid⟩
    rcases withRules_eq_ok_iff.1 hValid with ⟨rfl, hSatisfies⟩
    exact hasPlainCountry_of_satisfies hDeployable hSatisfies

/-- A character of two octets is no pair of letters, and an added code may stand in quotes. -/
theorem configured_country_added :
    let config : RulesConfig := ⟨.permissive, [['X', 'K']]⟩
    let rules : Rules := ⟨.withAdditional [['X', 'K']], OrganisationPolicy.permissive⟩
    let refused : RulesConfig := ⟨.legalName, [['X', 'K'], ['é'], ['x', 'k']]⟩
    let text : Text := "O=7,L=é,C=\"XK\"".toList
    let n : Name := minimal ['7'] ['é'] ['X', 'K']
    config.intoRules = .ok rules ∧ refused.intoRules = .error (.invalidExtraCountryCode ['é']) ∧
      rules.countries.contains ['X', 'K'] ∧ (Source.text text).read rules = .ok n ∧
        n.HasPlainCountry := by
  intro config rules refused text n
  rcases configured_country config with ⟨-, -, hContains, hNames⟩
  rcases configured_country refused with ⟨-, hRefused, -, -⟩
  have hConfig : config.intoRules = .ok rules := rfl
  have hRead : (Source.text text).read rules = .ok n := by decide +kernel
  refine ⟨hConfig, (hRefused _).2 ?_, ?_, hRead, hNames rules (.inr hConfig) _ n hRead⟩
  · exact ⟨[['X', 'K']], ['é'], [['x', 'k']], rfl, by decide, by decide, rfl⟩
  · exact (hContains rules hConfig _).2 (.inr (.inr List.mem_cons_self))

end Source
end Name
end MemberNames
