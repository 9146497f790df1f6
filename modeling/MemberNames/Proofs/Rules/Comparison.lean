import MemberNames.Name.Principal
import MemberNames.Proofs.Name.Validation
import MemberNames.Proofs.Rules.Config

/-!
# The same name under different rules

Rules are looked at in two checks, those of the organisation and of the country, and these come
behind everything about structure and in front of every other constraint. Two runs on the same input
under different rules therefore part at these checks or not at all.

* `Name.Source`, `Name.Source.read_eq_bind`: the three ways to a name, with the rules used last
* `Name.PassesRules`, `Name.withRules_eq_of_passesRules`: the checks that look at rules
* `Rules.IsWithin`: rules that accept whatever others accept
* `Name.Source.read_under_rules`: comparing two runs
-/

namespace MemberNames

/-! ## Ways to a name -/

namespace Name

/-- What a name is made from. -/
inductive Source where
  | text (s : Text)
  | principal (octets : Octets)
  | fields (n : Name)

namespace Source

/-- The name that is made from a source under rules. -/
def read (rules : Rules) : Source → Except NameError Name
  | .text s => parseWith s rules
  | .principal octets => fromDerWith octets rules
  | .fields n => n.withRules rules

/-- The fields that are found in a source, without regard to any rules. -/
def fields? : Source → Except NameError Name
  | .text s => do
    let assignment ← Assignment.empty.addAll (← (Rdn.decompose s).mapError .malformed)
    assignment.toFields
  | .principal octets => do
    let assignment ← Assignment.empty.addAll (← Principal.rdns octets)
    assignment.toFields
  | .fields n => .ok n

/-- Rules are not looked at before the fields are complete. -/
theorem read_eq_bind (rules : Rules) (source : Source) :
    source.read rules = (source.fields? >>= fun fields => fields.withRules rules) := by
  cases source with
  | text s => simp only [read, fields?, parseWith, ofRdns, bind_assoc]
  | principal octets => simp only [read, fields?, fromDerWith, ofRdns, bind_assoc]
  | fields n => rfl

end Source

/-! ## Checks that look at rules -/

/-- Whether an error is about the organisation or the country as the rules have it. -/
def IsAboutRules : NameError → Prop
  | .invalidOrganisation _ | .invalidCountryCode _ => True
  | _ => False

/-- Fields that pass the checks that look at rules. -/
structure PassesRules (fields : Name) (rules : Rules) : Prop where
  organisation : rules.organisationPolicy fields.organisation = .ok ()
  country : rules.countries.contains fields.country

theorem exists_isAboutRules_of_not_passesRules {fields : Name} {rules : Rules}
    (h : ¬ fields.PassesRules rules) :
    ∃ e, IsAboutRules e ∧ fields.withRules rules = .error e := by
  cases hPolicy : rules.organisationPolicy fields.organisation with
  | error e =>
      refine ⟨.invalidOrganisation e, trivial, withRules_eq_error_iff.2 ?_⟩
      exact ⟨[], .policy, _, rfl, List.forall_mem_nil _, .policy hPolicy⟩
  | ok _ =>
      have hCountry : rules.countries.contains fields.country = false := by
        rw [Bool.eq_false_iff]
        exact fun hContains => h ⟨hPolicy, hContains⟩
      refine ⟨.invalidCountryCode fields.country, trivial, withRules_eq_error_iff.2 ?_⟩
      refine ⟨[.policy], .country, _, rfl, ?_, .country hCountry⟩
      rw [List.forall_mem_singleton, ← Check.run_eq_ok_iff]
      exact Result.mapError_eq_ok_iff.2 hPolicy

/-- The checks behind them do not look at rules. -/
theorem withRules_eq_of_passesRules {fields : Name} {rules rules' : Rules}
    (h : fields.PassesRules rules) (h' : fields.PassesRules rules') :
    fields.withRules rules = fields.withRules rules' := by
  simp only [withRules, validate, h.organisation, h'.organisation, h.country, h'.country]

end Name

/-! ## Rules within others -/

namespace Rules

/-- Whether the other rules accept every country and every organisation that these accept. -/
structure IsWithin (rules rules' : Rules) : Prop where
  countries : ∀ code, rules.countries.contains code → rules'.countries.contains code
  organisations : ∀ v, rules.organisationPolicy v = .ok () → rules'.organisationPolicy v = .ok ()

theorem IsWithin.passesRules {rules rules' : Rules} (h : rules.IsWithin rules') {fields : Name}
    (hFields : fields.PassesRules rules) : fields.PassesRules rules' :=
  ⟨h.organisations _ hFields.organisation, h.countries _ hFields.country⟩

/-- A configuration only adds to what the standard rules accept. -/
theorem isWithin_of_intoRules {config : RulesConfig} {rules : Rules}
    (h : config.intoRules = .ok rules) : standard.IsWithin rules := by
  rcases RulesConfig.intoRules_eq_ok_iff.1 h with ⟨-, rfl⟩
  refine ⟨?_, ?_⟩
  · intro code hCode
    exact CountrySet.contains_withAdditional_iff.2 (.inl hCode)
  · intro v hv
    cases hPolicy : config.policy with
    | legalName => exact hv
    | permissive => rfl

end Rules

/-! ## Two runs -/

namespace Name

namespace Source

variable {source : Source} {rules rules' : Rules}

theorem passesRules_of_read {n : Name} (h : source.read rules = .ok n) :
    source.fields? = .ok n ∧ n.PassesRules rules := by
  rw [read_eq_bind] at h
  rcases Result.bind_eq_ok_iff.1 h with ⟨fields, hFields, hValid⟩
  rcases withRules_eq_ok_iff.1 hValid with ⟨rfl, hSatisfies⟩
  exact ⟨hFields, hSatisfies.organisation, hSatisfies.country⟩

theorem exists_isAboutRules_of_ne (h : source.read rules ≠ source.read rules') :
    ∃ e, IsAboutRules e ∧ (source.read rules = .error e ∨ source.read rules' = .error e) := by
  simp only [read_eq_bind] at h ⊢
  cases hFields : source.fields? with
  | error e =>
      rw [hFields] at h
      exact absurd rfl h
  | ok fields =>
      rw [hFields] at h
      by_cases hPasses : fields.PassesRules rules
      · by_cases hPasses' : fields.PassesRules rules'
        · exact absurd (withRules_eq_of_passesRules hPasses hPasses') h
        · rcases exists_isAboutRules_of_not_passesRules hPasses' with ⟨e, he, hError⟩
          exact ⟨e, he, .inr hError⟩
      · rcases exists_isAboutRules_of_not_passesRules hPasses with ⟨e, he, hError⟩
        exact ⟨e, he, .inl hError⟩

theorem eq_of_read {n m : Name} (h : source.read rules = .ok n)
    (h' : source.read rules' = .ok m) : n = m :=
  Except.ok.inj ((passesRules_of_read h).1.symm.trans (passesRules_of_read h').1)

theorem read_of_isWithin (hRules : rules.IsWithin rules') {n : Name}
    (h : source.read rules = .ok n) : source.read rules' = .ok n := by
  rcases passesRules_of_read h with ⟨hFields, hPasses⟩
  rw [read_eq_bind, hFields] at h ⊢
  exact (withRules_eq_of_passesRules (hRules.passesRules hPasses) hPasses).trans h

/-- Results under different rules differ only if one of them is an error about these rules, and a
name is the same under all rules that accept it. More liberal rules accept it, those of any
configuration whatever the standard rules accept. -/
theorem read_under_rules (source : Source) (rules rules' : Rules) :
    (source.read rules ≠ source.read rules' →
      ∃ e, IsAboutRules e ∧ (source.read rules = .error e ∨ source.read rules' = .error e)) ∧
    (∀ n m, source.read rules = .ok n → source.read rules' = .ok m → n = m) ∧
    (rules.IsWithin rules' → ∀ n, source.read rules = .ok n → source.read rules' = .ok n) ∧
    (∀ (config : RulesConfig) (configured : Rules), config.intoRules = .ok configured →
      ∀ n, source.read .standard = .ok n → source.read configured = .ok n) := by
  refine ⟨exists_isAboutRules_of_ne, ?_, ?_, ?_⟩
  · intro n m h h'
    exact eq_of_read h h'
  · intro hRules n h
    exact read_of_isWithin hRules h
  · intro config configured hConfig n h
    exact read_of_isWithin (Rules.isWithin_of_intoRules hConfig) h

/-- A configuration that adds a country and lets every organisation pass. -/
theorem read_under_rules_permissive :
    let config : RulesConfig := ⟨.permissive, ["XX".toList]⟩
    let rules : Rules := ⟨.withAdditional ["XX".toList], OrganisationPolicy.permissive⟩
    let lenient : Rules := ⟨.iso, OrganisationPolicy.permissive⟩
    let letters : Source := .text "O=JP,L=é,C=DE".toList
    let digit : Source := .text "O=7,L=é,C=DE".toList
    let n : Name := minimal "JP".toList "é".toList "DE".toList
    let m : Name := minimal "7".toList "é".toList "DE".toList
    config.intoRules = .ok rules ∧ letters.read .standard = .ok n ∧ letters.read rules = .ok n ∧
      lenient.IsWithin rules ∧ digit.read lenient = .ok m ∧ digit.read rules = .ok m ∧
        (∀ m', digit.read rules = .ok m' → m = m') ∧ digit.read .standard ≠ digit.read rules ∧
          ∃ e, IsAboutRules e ∧
            (digit.read .standard = .error e ∨ digit.read rules = .error e) := by
  intro config rules lenient letters digit n m
  have hConfig : config.intoRules = .ok rules := rfl
  have hLetters : letters.read .standard = .ok n := by decide +kernel
  have hLenient : digit.read lenient = .ok m := by decide +kernel
  have hWithin : lenient.IsWithin rules :=
    ⟨fun _ hCode => CountrySet.contains_withAdditional_iff.2 (.inl hCode), fun _ _ => rfl⟩
  rcases read_under_rules letters .standard rules with ⟨-, -, -, hConfigured⟩
  rcases read_under_rules digit lenient rules with ⟨-, hSame, hMore, -⟩
  rcases read_under_rules digit .standard rules with ⟨hAbout, -⟩
  have hDigit : digit.read rules = .ok m := hMore hWithin m hLenient
  have hDiffer : digit.read .standard ≠ digit.read rules := by
    have hRefused : digit.read .standard = .error (.invalidOrganisation .tooFewLetters) := by
      decide +kernel
    rw [hRefused, hDigit]
    exact nofun
  exact ⟨hConfig, hLetters, hConfigured config rules hConfig n hLetters, hWithin, hLenient, hDigit,
    fun m' hm' => hSame m m' hLenient hm', hDiffer, hAbout hDiffer⟩

end Source
end Name
end MemberNames
