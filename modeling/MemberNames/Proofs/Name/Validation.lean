import MemberNames.Name.Basic
import MemberNames.Proofs.Result

/-!
# What validated names satisfy

Validation is a run of checks in a fixed order. A name passes exactly if it passes each of them, and
otherwise the first one that it fails tells why.

* `Name.Satisfies`, `Name.satisfies_iff`: the constraints
* `Name.Check.order`, `Name.Check.Fails`: the checks one by one, and how fields fail them
* `Name.validate_eq_forM`: validation makes the checks in their order
* `Name.withRules_eq_ok_iff`, `Name.withRules_eq_error_iff`: what comes out of it
-/

namespace MemberNames
namespace Name

/-! ## Constraints -/

/-- What a name has to satisfy under rules. -/
structure Satisfies (n : Name) (rules : Rules) : Prop where
  organisation : rules.organisationPolicy n.organisation = .ok ()
  country : rules.countries.contains n.country
  lengths : ∀ a bound v, a.lengthBound? = some bound → n.get? a = some v → v.length < bound
  state : n.state.any (·.all Unicode.isWhiteSpace) = false

/-- The constraints of each field spelled out. -/
theorem satisfies_iff {fields : Name} {rules : Rules} :
    fields.Satisfies rules ↔
      rules.organisationPolicy fields.organisation = .ok () ∧
        rules.countries.contains fields.country ∧ fields.organisation.length < 128 ∧
          fields.locality.length < 64 ∧
            (∀ v, fields.state = some v →
              v.length < 64 ∧ ∃ c ∈ v, Unicode.isWhiteSpace c = false) ∧
              (∀ v, fields.organisationUnit = some v → v.length < 64) ∧
                ∀ v, fields.commonName = some v → v.length < 64 := by
  have hState : fields.state.any (·.all Unicode.isWhiteSpace) = false ↔
      ∀ v, fields.state = some v → ∃ c ∈ v, Unicode.isWhiteSpace c = false := by
    cases fields.state with
    | none => simp
    | some v => simp
  constructor
  · intro h
    rcases h with ⟨hPolicy, hCountry, hLengths, hBlank⟩
    refine ⟨hPolicy, hCountry, hLengths .organisation 128 _ rfl rfl,
      hLengths .locality 64 _ rfl rfl, ?_, ?_, ?_⟩
    · intro v hv
      exact ⟨hLengths .state 64 v rfl hv, hState.1 hBlank v hv⟩
    · intro v hv
      exact hLengths .organisationUnit 64 v rfl hv
    · intro v hv
      exact hLengths .commonName 64 v rfl hv
  · rintro ⟨hPolicy, hCountry, hO, hL, hST, hOU, hCN⟩
    refine ⟨hPolicy, hCountry, ?_, hState.2 fun v hv => (hST v hv).2⟩
    -- One case for each attribute, with the bound that it has.
    intro a bound v hBound hv
    cases a with
    | commonName =>
        cases hBound
        exact hCN v hv
    | organisationUnit =>
        cases hBound
        exact hOU v hv
    | organisation =>
        cases hBound
        cases hv
        exact hO
    | locality =>
        cases hBound
        cases hv
        exact hL
    | state =>
        cases hBound
        exact (hST v hv).1
    | country =>
        cases hBound

/-! ## Checks -/

/-- A check of the fields of a name. -/
inductive Check where
  | policy
  | country
  /-- The value of an attribute, if there is one, has to stay below a length. -/
  | length (a : Attribute) (bound : Nat)
  | state
  deriving DecidableEq

namespace Check

/-- The checks in the order in which they count. -/
def order : List Check :=
  [.policy, .country, .length .organisation 128, .length .locality 64, .length .state 64,
    .length .organisationUnit 64, .length .commonName 64, .state]

/-- A check that fields fail under rules, and the error that tells so. -/
inductive Fails (fields : Name) (rules : Rules) : Check → NameError → Prop where
  | policy {e : OrganisationError} :
      rules.organisationPolicy fields.organisation = .error e →
        Fails fields rules .policy (.invalidOrganisation e)
  | country :
      rules.countries.contains fields.country = false →
        Fails fields rules .country (.invalidCountryCode fields.country)
  | length {a : Attribute} {bound : Nat} {v : Text} :
      fields.get? a = some v → bound ≤ v.length →
        Fails fields rules (.length a bound) (.tooLong a bound)
  | state {v : Text} :
      fields.state = some v → (∀ c ∈ v, Unicode.isWhiteSpace c) →
        Fails fields rules .state (.blankAttribute .state)

/-- The outcome of one check. -/
def run (fields : Name) (rules : Rules) : Check → Except NameError Unit
  | .policy => (rules.organisationPolicy fields.organisation).mapError .invalidOrganisation
  | .country =>
    if rules.countries.contains fields.country then .ok ()
    else .error (.invalidCountryCode fields.country)
  | .length a bound =>
    if (fields.get? a).any (bound ≤ ·.length) then .error (.tooLong a bound) else .ok ()
  | .state =>
    if fields.state.any (·.all Unicode.isWhiteSpace) then .error (.blankAttribute .state)
    else .ok ()

theorem run_eq_error_iff {fields : Name} {rules : Rules} {check : Check} {e : NameError} :
    run fields rules check = .error e ↔ Fails fields rules check e := by
  constructor
  · intro h
    cases check with
    | policy =>
        rcases Result.mapError_eq_error_iff.1 h with ⟨e', hPolicy, rfl⟩
        exact .policy hPolicy
    | country =>
        simp only [run] at h
        split at h
        · cases h
        · rename_i hCountry
          cases h
          exact .country (Bool.eq_false_iff.2 hCountry)
    | length a bound =>
        cases hv : fields.get? a with
        | none =>
            simp [run, hv] at h
        | some v =>
            by_cases hLong : bound ≤ v.length
            · have he : NameError.tooLong a bound = e := by simpa [run, hv, hLong] using h
              cases he
              exact .length hv hLong
            · simp [run, hv, hLong] at h
    | state =>
        cases hv : fields.state with
        | none =>
            simp [run, hv] at h
        | some v =>
            by_cases hBlank : v.all Unicode.isWhiteSpace
            · have he : NameError.blankAttribute .state = e := by simpa [run, hv, hBlank] using h
              cases he
              exact .state hv (List.all_eq_true.1 hBlank)
            · simp [run, hv, hBlank] at h
  · rintro (hPolicy | hCountry | ⟨hv, hLong⟩ | ⟨hv, hBlank⟩)
    · exact Result.mapError_eq_error_iff.2 ⟨_, hPolicy, rfl⟩
    · simp [run, hCountry]
    · simp [run, hv, hLong]
    · simpa [run, hv] using hBlank

theorem run_eq_ok_iff {fields : Name} {rules : Rules} {check : Check} :
    run fields rules check = .ok () ↔ ∀ e, ¬ Fails fields rules check e := by
  simp only [← run_eq_error_iff]
  cases run fields rules check with
  | error e => simp
  | ok u => simp

end Check

theorem checkLength_eq_run (fields : Name) (rules : Rules) {a : Attribute} {bound : Nat}
    (h : a.lengthBound? = some bound) :
    fields.checkLength a = Check.run fields rules (.length a bound) := by
  cases hv : fields.get? a with
  | none => simp [checkLength, Check.run, h, hv]
  | some v => simp [checkLength, Check.run, h, hv]

/-- The lengths are checked in one run. -/
theorem forM_lengthOrder (fields : Name) (rules : Rules) :
    lengthOrder.forM fields.checkLength =
      [Check.length .organisation 128, .length .locality 64, .length .state 64,
        .length .organisationUnit 64, .length .commonName 64].forM
          (Check.run fields rules) := by
  have hBound : ∀ a bound, a.lengthBound? = some bound →
      fields.checkLength a = Check.run fields rules (.length a bound) :=
    fun a bound => checkLength_eq_run fields rules
  simp only [lengthOrder, List.forM_eq_forM, List.forM_cons, List.forM_nil,
    hBound .organisation 128 rfl, hBound .locality 64 rfl, hBound .state 64 rfl,
    hBound .organisationUnit 64 rfl, hBound .commonName 64 rfl]

/-- Validation makes the checks one after the other. -/
theorem validate_eq_forM (fields : Name) (rules : Rules) :
    fields.validate rules = Check.order.forM (Check.run fields rules) := by
  have hOrder : Check.order = [.policy, .country] ++ ([.length .organisation 128,
      .length .locality 64, .length .state 64, .length .organisationUnit 64,
      .length .commonName 64] ++ [.state]) := rfl
  rw [validate, forM_lengthOrder fields rules, hOrder]
  cases hCountry : rules.countries.contains fields.country with
  | true => simp [Check.run, hCountry]
  | false => simp [Check.run, hCountry]

/-! ## Outcomes -/

/-- The constraints are those that the checks look for. -/
theorem satisfies_iff_run {fields : Name} {rules : Rules} :
    fields.Satisfies rules ↔ ∀ check ∈ Check.order, Check.run fields rules check = .ok () := by
  have hPolicy : Check.run fields rules .policy = .ok () ↔
      rules.organisationPolicy fields.organisation = .ok () :=
    Result.mapError_eq_ok_iff
  have hCountry : Check.run fields rules .country = .ok () ↔
      rules.countries.contains fields.country := by
    simp [Check.run]
  have hLength : ∀ a bound, Check.run fields rules (.length a bound) = .ok () ↔
      ∀ v, fields.get? a = some v → v.length < bound := by
    intro a bound
    cases hv : fields.get? a with
    | none => simp [Check.run, hv]
    | some v => simp [Check.run, hv]
  have hState : Check.run fields rules .state = .ok () ↔
      ∀ v, fields.state = some v → ∃ c ∈ v, Unicode.isWhiteSpace c = false := by
    cases hv : fields.state with
    | none => simp [Check.run, hv]
    | some v => simp [Check.run, hv]
  simp only [satisfies_iff, Check.order, List.forall_mem_cons, hPolicy, hCountry, hLength, hState]
  constructor
  · rintro ⟨hO, hC, hLengthO, hLengthL, hST, hOU, hCN⟩
    refine ⟨hO, hC, ?_, ?_, fun v hv => (hST v hv).1, hOU, hCN, fun v hv => (hST v hv).2,
      List.forall_mem_nil _⟩
    · rintro v ⟨⟩
      exact hLengthO
    · rintro v ⟨⟩
      exact hLengthL
  · rintro ⟨hO, hC, hLengthO, hLengthL, hST, hOU, hCN, hBlank, -⟩
    exact ⟨hO, hC, hLengthO _ rfl, hLengthL _ rfl, fun v hv => ⟨hST v hv, hBlank v hv⟩, hOU, hCN⟩

theorem withRules_eq_ok_iff {fields n : Name} {rules : Rules} :
    fields.withRules rules = .ok n ↔ n = fields ∧ n.Satisfies rules := by
  rw [withRules, Result.map_eq_ok_iff, validate_eq_forM]
  constructor
  · rintro ⟨⟨⟩, hValid, rfl⟩
    exact ⟨rfl, satisfies_iff_run.2 (Result.forM_eq_ok_iff.1 hValid)⟩
  · rintro ⟨rfl, hSatisfies⟩
    exact ⟨(), Result.forM_eq_ok_iff.2 (satisfies_iff_run.1 hSatisfies), rfl⟩

theorem withRules_eq_error_iff {fields : Name} {rules : Rules} {e : NameError} :
    fields.withRules rules = .error e ↔
      ∃ before check after, Check.order = before ++ check :: after ∧
        (∀ c ∈ before, ∀ e', ¬ Check.Fails fields rules c e') ∧
          Check.Fails fields rules check e := by
  rw [withRules, Result.map_eq_error_iff, validate_eq_forM, Result.forM_eq_error_iff]
  simp only [Check.run_eq_ok_iff, Check.run_eq_error_iff]

end Name
end MemberNames
