import MemberNames.Proofs.Name.Mapping
import MemberNames.Proofs.Name.Structure
import MemberNames.Proofs.Name.Validation

/-!
# Why a name is refused

Many inputs are wrong in several ways, and one error tells why. The structure of the whole input
counts first, then the types of its pairs in their order, then what is missing, and last the values.
Text and principals differ in their structure only.

* `Name.parseWith_eq_malformed_iff`, `Name.exists_fromDerWith_eq_encoding_iff`,
  `Name.fromDerWith_eq_malformed_iff`: structure
* `Name.parseWith_eq_iff`, `Name.fromDerWith_eq_iff`: everything behind it
* `Name.refusal_order`: the result of each way to a name
-/

namespace MemberNames
namespace Name

variable {rules : Rules}

/-! ## Errors that are not about structure -/

/-- Whether an error is about the structure of a text or of a principal. -/
def IsStructural : NameError → Prop
  | .malformed _ | .encoding _ => True
  | _ => False

theorem Check.Fails.not_isStructural {fields : Name} {check : Check} {e : NameError}
    (h : Check.Fails fields rules check e) : ¬ IsStructural e := by
  cases h <;> exact id

theorem not_isStructural_of_withRules {fields : Name} {e : NameError}
    (h : fields.withRules rules = .error e) : ¬ IsStructural e := by
  rcases withRules_eq_error_iff.1 h with ⟨_, _, _, _, _, hFails⟩
  exact hFails.not_isStructural

/-- Pairs are well-formed; what is wrong with them is their types or their values. -/
theorem not_isStructural_of_ofRdns {rdns : List Rdn} {e : NameError}
    (h : ofRdns rdns rules = .error e) : ¬ IsStructural e := by
  have hLeads := ofRdns_eq_iff.1 h
  generalize hResult : (Except.error e : Except NameError Name) = result at hLeads
  cases hLeads with
  | unsupported _ _ _ | duplicate _ _ _ _ | missing _ _ _ _ =>
      cases hResult
      exact id
  | validated _ _ =>
      exact not_isStructural_of_withRules hResult.symm

/-- A name that pairs denote has passed validation. -/
theorem withRules_of_ofRdns {rdns : List Rdn} {n : Name} (h : ofRdns rdns rules = .ok n) :
    n.withRules rules = .ok n := by
  rcases Result.bind_eq_ok_iff.1 h with ⟨assignment, -, hFields⟩
  rcases Result.bind_eq_ok_iff.1 hFields with ⟨fields, -, hValid⟩
  rcases withRules_eq_ok_iff.1 hValid with ⟨rfl, -⟩
  exact hValid

/-! ## Text -/

theorem withRules_of_parseWith {s : Text} {n : Name} (h : parseWith s rules = .ok n) :
    n.withRules rules = .ok n := by
  rcases Result.bind_eq_ok_iff.1 h with ⟨rdns, -, hRdns⟩
  exact withRules_of_ofRdns hRdns

theorem parseWith_eq_malformed_iff {s : Text} {d : Defect} :
    parseWith s rules = .error (.malformed d) ↔ Rdn.decompose s = .error d := by
  rw [parseWith, Result.bind_eq_error_iff, Result.mapError_eq_error_iff]
  constructor
  · rintro (⟨d', hRead, hSame⟩ | ⟨rdns, -, hRdns⟩)
    · rw [hRead, NameError.malformed.inj hSame]
    · exact absurd trivial (not_isStructural_of_ofRdns hRdns)
  · intro h
    exact .inl ⟨d, h, rfl⟩

theorem parseWith_ne_encoding (s : Text) (e : Der.Error) :
    parseWith s rules ≠ .error (.encoding e) := by
  intro h
  rcases Result.bind_eq_error_iff.1 h with hRead | ⟨rdns, -, hRdns⟩
  · rcases Result.mapError_eq_error_iff.1 hRead with ⟨d, -, hSame⟩
    cases hSame
  · exact not_isStructural_of_ofRdns hRdns trivial

theorem parseWith_eq_iff {s : Text} {rdns : List Rdn} (h : Rdn.decompose s = .ok rdns)
    {result : Except NameError Name} :
    parseWith s rules = result ↔ Rdn.LeadsTo rules rdns result := by
  rw [← ofRdns_eq_iff, parseWith, h]
  rfl

/-! ## Principals -/

theorem exists_fromDerWith_eq_encoding_iff {octets : Octets} :
    (∃ e, fromDerWith octets rules = .error (.encoding e)) ↔
      ¬ ∃ sets, Principal.IsPrincipal octets sets := by
  rw [← Principal.exists_rdns_eq_encoding_iff]
  refine exists_congr fun e => ?_
  rw [fromDerWith, Result.bind_eq_error_iff]
  refine or_iff_left ?_
  rintro ⟨rdns, -, hRdns⟩
  exact not_isStructural_of_ofRdns hRdns trivial

theorem fromDerWith_eq_malformed_iff {octets : Octets} {sets : List (List Principal.TypedValue)}
    (h : Principal.IsPrincipal octets sets) {d : Defect} :
    fromDerWith octets rules = .error (.malformed d) ↔ Principal.FirstFaulty sets d := by
  rw [← Principal.rdns_eq_malformed_iff h, fromDerWith, Result.bind_eq_error_iff]
  refine or_iff_left ?_
  rintro ⟨rdns, -, hRdns⟩
  exact not_isStructural_of_ofRdns hRdns trivial

theorem fromDerWith_eq_iff {octets : Octets} {sets : List (List Principal.TypedValue)}
    {rdns : List Rdn} (h : Principal.IsPrincipal octets sets)
    (hHolds : List.Forall₂ Principal.Holds sets rdns) {result : Except NameError Name} :
    fromDerWith octets rules = result ↔ Rdn.LeadsTo rules rdns result := by
  rw [← ofRdns_eq_iff, fromDerWith, (Principal.rdns_eq_ok_iff h).2 hHolds]
  rfl

/-! ## Every way to a name -/

/-- What each way to a name gives under rules: a valid name, or the one error that counts. -/
theorem refusal_order (rules : Rules) :
    -- Fields: all checks are passed, or the first one that is not tells why.
    (∀ fields n : Name, fields.withRules rules = .ok n ↔ n = fields ∧
      rules.organisationPolicy n.organisation = .ok () ∧
        rules.countries.contains n.country ∧ n.organisation.length < 128 ∧
          n.locality.length < 64 ∧
            (∀ v, n.state = some v → v.length < 64 ∧ ∃ c ∈ v, Unicode.isWhiteSpace c = false) ∧
              (∀ v, n.organisationUnit = some v → v.length < 64) ∧
                ∀ v, n.commonName = some v → v.length < 64) ∧
    (∀ (fields : Name) (e : NameError), fields.withRules rules = .error e ↔
      ∃ before check after, Check.order = before ++ check :: after ∧
        (∀ c ∈ before, ∀ e', ¬ Check.Fails fields rules c e') ∧
          Check.Fails fields rules check e) ∧
    -- Structure: of a text, and of octets.
    (∀ s d, parseWith s rules = .error (.malformed d) ↔ Rdn.decompose s = .error d) ∧
    (∀ s e, parseWith s rules ≠ .error (.encoding e)) ∧
    (∀ octets, (∃ e, fromDerWith octets rules = .error (.encoding e)) ↔
      ¬ ∃ sets, Principal.IsPrincipal octets sets) ∧
    (∀ octets sets, Principal.IsPrincipal octets sets → ∀ d,
      fromDerWith octets rules = .error (.malformed d) ↔ Principal.FirstFaulty sets d) ∧
    -- Pairs: one relation for both.
    (∀ s rdns, Rdn.decompose s = .ok rdns → ∀ result,
      parseWith s rules = result ↔ Rdn.LeadsTo rules rdns result) ∧
    (∀ octets sets rdns, Principal.IsPrincipal octets sets →
      List.Forall₂ Principal.Holds sets rdns → ∀ result,
        fromDerWith octets rules = result ↔ Rdn.LeadsTo rules rdns result) ∧
    -- No way leads to a name that validation would refuse.
    (∀ s n, parseWith s rules = .ok n → n.withRules rules = .ok n) ∧
    (∀ octets n, fromDerWith octets rules = .ok n → n.withRules rules = .ok n) := by
  refine ⟨?_, ?_, ?_, ?_, ?_, ?_, ?_, ?_, ?_, ?_⟩
  · intro fields n
    rw [withRules_eq_ok_iff, satisfies_iff]
  · intro fields e
    exact withRules_eq_error_iff
  · intro s d
    exact parseWith_eq_malformed_iff
  · intro s e
    exact parseWith_ne_encoding s e
  · intro octets
    exact exists_fromDerWith_eq_encoding_iff
  · intro octets sets hPrincipal d
    exact fromDerWith_eq_malformed_iff hPrincipal
  · intro s rdns hRead result
    exact parseWith_eq_iff hRead
  · intro octets sets rdns hPrincipal hHolds result
    exact fromDerWith_eq_iff hPrincipal hHolds
  · intro s n h
    rcases Result.bind_eq_ok_iff.1 h with ⟨rdns, -, hRdns⟩
    exact withRules_of_ofRdns hRdns
  · intro octets n h
    rcases Result.bind_eq_ok_iff.1 h with ⟨rdns, -, hRdns⟩
    exact withRules_of_ofRdns hRdns

/-- An unsupported type counts before a repeated one behind it and before all that is missing. -/
theorem refusal_order_unsupported :
    let s : Text := "O=A;X=1,O=B".toList
    let rdns : List Rdn := [⟨['O'], ['A']⟩, ⟨['X'], ['1']⟩, ⟨['O'], ['B']⟩]
    Rdn.decompose s = .ok rdns ∧
      Rdn.LeadsTo .standard rdns (.error (.unsupportedAttribute ['X'])) ∧
        parseWith s .standard = .error (.unsupportedAttribute ['X']) := by
  intro s rdns
  have hRead : Rdn.decompose s = .ok rdns := by decide +kernel
  have hAssigns : Rdn.Assigns [⟨['O'], ['A']⟩] [(.organisation, ['A'])] :=
    ⟨.cons ⟨rfl, rfl⟩ .nil, by decide⟩
  have hLeads : Rdn.LeadsTo .standard rdns (.error (.unsupportedAttribute ['X'])) :=
    .unsupported (r := ⟨['X'], ['1']⟩) rfl hAssigns rfl
  rcases refusal_order .standard with ⟨-, -, -, -, -, -, hText, -⟩
  exact ⟨hRead, hLeads, (hText s rdns hRead _).2 hLeads⟩

end Name
end MemberNames
