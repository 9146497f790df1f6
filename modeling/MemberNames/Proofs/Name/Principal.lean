import MemberNames.Proofs.Name.Mapping
import MemberNames.Proofs.Name.Structure
import MemberNames.Proofs.Name.Validation
import MemberNames.Proofs.Rules.Config

/-!
# Reading principals back

The principal form of a name has one set for each present attribute. What is read back are the pairs
of the name, least significant first, with dotted identifiers for types. A principal form is short
enough to be read whenever the values of the name are within their bounds.

* `Principal.isPrincipal_principalElement`: the sets of a principal form
* `Principal.rdns_principalElement`: the pairs that are read back
* `Name.exists_toDer_of_size_country`: names that have a principal form
* `Name.fromDerWith_eq_withRules`: reading the principal form of any name
* `Name.fromDerWith_toDer`: names come back, and different names have different principal forms
-/

namespace MemberNames
namespace Principal

open Der

/-! ## Layers -/

/-- The element that holds the identifier and the value of an attribute. -/
def pairElement (a : Attribute) (v : Text) : Element :=
  container Tag.sequence [⟨Tag.objectIdentifier, a.oid.toContents⟩,
    ⟨stringTag a, Utf8.encode v⟩]

/-- The typed value that is read from it. -/
def attributeValue (a : Attribute) (v : Text) : TypedValue :=
  ⟨a.oid, a.oid.toContents, ⟨stringTag a, Utf8.encode v⟩⟩

theorem isStringTag_stringTag (a : Attribute) : Value.IsStringTag (stringTag a) := by
  cases a with
  | country => exact .inr (.inl rfl)
  | commonName | organisationUnit | organisation | locality | state => exact .inl rfl

theorem ofContents?_oid (a : Attribute) : ObjectId.ofContents? a.oid.toContents = some a.oid := by
  cases a <;> rfl

theorem isWellFormed_attributeValue (a : Attribute) (v : Text) :
    (attributeValue a v).IsWellFormed :=
  ⟨ObjectId.ofContents?_eq_some_iff.1 (ofContents?_oid a),
    Value.isKnown_of_isStringTag (isStringTag_stringTag a)⟩

theorem holds_attributeValue (a : Attribute) (v : Text) :
    Holds [attributeValue a v] ⟨a.oid.toDotted, v⟩ :=
  .intro (isStringTag_stringTag a) rfl

/-- The element of a whole principal. -/
def principalElement (pairs : List (Attribute × Text)) : Element :=
  container Tag.sequence (pairs.map fun (a, v) => rdnElement a v)

/-- The typed values that are read from it. -/
def attributeValues (pairs : List (Attribute × Text)) : List TypedValue :=
  pairs.map fun (a, v) => attributeValue a v

theorem principalElement_eq (pairs : List (Attribute × Text)) :
    principalElement pairs = sequenceElement ((attributeValues pairs).map fun v => [v]) := by
  rw [sequenceElement, attributeValues, List.map_map, List.map_map]
  rfl

theorem isPrincipal_principalElement {pairs : List (Attribute × Text)}
    (h : (principalElement pairs).toOctets.length ≤ maxLength) :
    IsPrincipal (principalElement pairs).toOctets
      ((attributeValues pairs).map fun v => [v]) := by
  rw [principalElement_eq] at h ⊢
  apply isPrincipal_of_values h
  intro v hv
  rcases List.mem_map.1 hv with ⟨pair, -, rfl⟩
  exact isWellFormed_attributeValue pair.1 pair.2

/-- The pairs of a principal come back with dotted identifiers for types. -/
theorem rdns_principalElement {pairs : List (Attribute × Text)}
    (h : (principalElement pairs).toOctets.length ≤ maxLength) :
    rdns (principalElement pairs).toOctets =
      .ok (pairs.map fun (a, v) => ⟨a.oid.toDotted, v⟩) := by
  rw [rdns_eq_ok_iff (isPrincipal_principalElement h), attributeValues, List.map_map,
    List.forall₂_map_left_iff, List.forall₂_map_right_iff, List.forall₂_same]
  intro pair _
  exact holds_attributeValue pair.1 pair.2

/-! ## Lengths of layers -/

theorem length_rdnElement_le (a : Attribute) (v : Text) :
    (rdnElement a v).toOctets.length ≤ 27 + Utf8.size v := by
  have hOid : a.oid.toContents.length = 3 := by
    cases a <;> rfl
  -- Four elements with six octets each at most in front of their content, and the identifier.
  have hType := Element.length_toOctets_le ⟨Tag.objectIdentifier, a.oid.toContents⟩
  have hValue := Element.length_toOctets_le ⟨stringTag a, Utf8.encode v⟩
  have hPair := (pairElement a v).length_toOctets_le
  have hSet := (rdnElement a v).length_toOctets_le
  have hPairContent : (pairElement a v).content.length =
      (Element.toOctets ⟨Tag.objectIdentifier, a.oid.toContents⟩).length +
        (Element.toOctets ⟨stringTag a, Utf8.encode v⟩).length := by
    simp [pairElement, container]
  have hSetContent : (rdnElement a v).content.length = (pairElement a v).toOctets.length := by
    simp [rdnElement, pairElement, container]
  have hSize : Utf8.size v = (Utf8.encode v).length := rfl
  simp only [hOid] at hType
  simp only [← hSize] at hValue
  omega

theorem length_principalElement_le {pairs : List (Attribute × Text)} {bound : Nat}
    (h : ∀ pair ∈ pairs, Utf8.size pair.2 ≤ bound) :
    (principalElement pairs).toOctets.length ≤ 6 + pairs.length * (27 + bound) := by
  have hRdns : ∀ e ∈ pairs.map fun (a, v) => rdnElement a v, e.toOctets.length ≤ 27 + bound := by
    intro e he
    rcases List.mem_map.1 he with ⟨pair, hPair, rfl⟩
    exact Nat.le_trans (length_rdnElement_le pair.1 pair.2) (Nat.add_le_add_left (h pair hPair) 27)
  have hContent := length_flatMap_toOctets_le hRdns
  rw [List.length_map] at hContent
  exact Nat.le_trans (principalElement pairs).length_toOctets_le (Nat.add_le_add_left hContent 6)

/-! ## Pairs -/

theorem resolves_pairs (pairs : List (Attribute × Text)) :
    Rdn.Resolves (pairs.map fun (a, v) => ⟨a.oid.toDotted, v⟩) pairs := by
  rw [Rdn.Resolves, List.forall₂_map_left_iff, List.forall₂_same]
  intro pair _
  exact ⟨pair.1.ofToken?_toDotted, rfl⟩

end Principal

/-! ## Names -/

namespace Name

open Der Principal

theorem toDer_eq_ok_iff {n : Name} {der : Octets} :
    n.toDer = .ok der ↔
      der = (principalElement n.attributes.reverse).toOctets ∧ der.length ≤ maxLength := by
  have hForm : n.toDer =
      if (principalElement n.attributes.reverse).toOctets.length ≤ maxLength then
        .ok (principalElement n.attributes.reverse).toOctets
      else .error (.encoding .tooLong) :=
    rfl
  rw [hForm]
  constructor
  · intro h
    split at h
    · rename_i hLength
      rcases Except.ok.inj h with rfl
      exact ⟨rfl, hLength⟩
    · cases h
  · intro h
    rcases h with ⟨rfl, hLength⟩
    rw [if_pos hLength]

/-- The principal form of any name is read as the name itself, as far as the rules admit it. -/
theorem fromDerWith_eq_withRules {n : Name} {der : Octets} (h : n.toDer = .ok der)
    (rules : Rules) : fromDerWith der rules = n.withRules rules := by
  rcases toDer_eq_ok_iff.1 h with ⟨rfl, hLength⟩
  calc
    fromDerWith (principalElement n.attributes.reverse).toOctets rules
        = ofRdns (n.attributes.reverse.map fun (a, v) => ⟨a.oid.toDotted, v⟩) rules :=
      Result.bind_of_ok (rdns_principalElement hLength)
    _ = n.withRules rules := ofRdns_of_resolves (resolves_pairs _) (List.reverse_perm _) rules

/-! ## Lengths of principal forms -/

theorem length_attributes_le (n : Name) : n.attributes.length ≤ 6 :=
  List.length_filterMap_le _ Attribute.all

/-- A name whose values are short has a principal form. -/
theorem exists_toDer_of_size_le {n : Name}
    (h : ∀ a v, n.get? a = some v → Utf8.size v ≤ 512) : ∃ der, n.toDer = .ok der := by
  have hPairs : ∀ pair ∈ n.attributes.reverse, Utf8.size pair.2 ≤ 512 := by
    intro pair hPair
    exact h pair.1 pair.2 (mem_attributes_iff.1 (List.mem_reverse.1 hPair))
  have hCount : n.attributes.reverse.length ≤ 6 := by
    rw [List.length_reverse]
    exact n.length_attributes_le
  -- Six pairs, each with 27 octets in front of its value.
  have hLength : (principalElement n.attributes.reverse).toOctets.length ≤ maxLength :=
    calc (principalElement n.attributes.reverse).toOctets.length
      _ ≤ 6 + n.attributes.reverse.length * (27 + 512) := length_principalElement_le hPairs
      _ ≤ 6 + 6 * (27 + 512) := Nat.add_le_add_left (Nat.mul_le_mul_right _ hCount) 6
      _ ≤ maxLength := by decide
  exact ⟨_, toDer_eq_ok_iff.2 ⟨rfl, hLength⟩⟩

/-- The bounds count characters, of which none takes more than four octets. -/
theorem exists_toDer_of_size_country {n : Name} {rules : Rules} (h : n.Satisfies rules)
    (hCountry : Utf8.size n.country = 2) : ∃ der, n.toDer = .ok der := by
  apply exists_toDer_of_size_le
  intro a v hv
  -- The greatest bound is the one for organisations.
  have hBounded : ∀ bound ≤ 128, a.lengthBound? = some bound → Utf8.size v ≤ 512 := by
    intro bound hBound hSome
    have hLength := h.lengths a bound v hSome hv
    have hSize := Utf8.size_le v
    omega
  cases a with
  | country =>
      rcases Option.some.inj hv with rfl
      rw [hCountry]
      decide
  | organisation =>
      exact hBounded 128 (by decide) rfl
  | commonName | organisationUnit | locality | state =>
      exact hBounded 64 (by decide) rfl

/-- A valid name comes back from its principal form. -/
theorem fromDerWith_of_toDer {n : Name} {rules : Rules} {der : Octets}
    (h : n.withRules rules = .ok n) (hDer : n.toDer = .ok der) :
    fromDerWith der rules = .ok n := by
  calc
    fromDerWith der rules = n.withRules rules := fromDerWith_eq_withRules hDer rules
    _ = .ok n := h

/-- A valid name comes back from its principal form, which it has if its country code is two octets
long, and always under the rules of a deployment. Two such names have the same principal form
exactly if they are the same, whatever rules each of them was validated under. -/
theorem fromDerWith_toDer {n : Name} {rules : Rules} (h : n.withRules rules = .ok n) :
    (∀ der, n.toDer = .ok der → fromDerWith der rules = .ok n) ∧
      (Utf8.size n.country = 2 → ∃ der, n.toDer = .ok der) ∧
        (rules.IsDeployable → ∃ der, n.toDer = .ok der) ∧
          ∀ (m : Name) (rules' : Rules) (der der' : Octets), m.withRules rules' = .ok m →
            n.toDer = .ok der → m.toDer = .ok der' → (der = der' ↔ n = m) := by
  have hSatisfies : n.Satisfies rules := (withRules_eq_ok_iff.1 h).2
  refine ⟨?_, ?_, ?_, ?_⟩
  · intro der hDer
    exact fromDerWith_of_toDer h hDer
  · intro hCountry
    exact exists_toDer_of_size_country hSatisfies hCountry
  · intro hRules
    exact exists_toDer_of_size_country hSatisfies (hRules.size_country hSatisfies.country)
  · intro m rules' der der' hm hDer hDer'
    constructor
    · rintro rfl
      -- Read under the rules of `n`, the common octets denote `n`, and what they denote is `m`.
      have hRead : m.withRules rules = .ok n :=
        calc
          m.withRules rules = fromDerWith der rules := (fromDerWith_eq_withRules hDer' rules).symm
          _ = .ok n := fromDerWith_of_toDer h hDer
      exact (withRules_eq_ok_iff.1 hRead).1
    · rintro rfl
      exact Except.ok.inj (hDer.symm.trans hDer')

/-- Literal quotes come back, and an empty attribute is not an absent one. -/
theorem fromDerWith_toDer_empty_unit :
    let n : Name := ⟨some ['"', 'x', '"'], some [], ['B', 'a', 'n', 'k'], ['é'], none, ['D', 'E']⟩
    let m : Name := { n with organisationUnit := none }
    n.withRules .standard = .ok n ∧ m.withRules .standard = .ok m ∧
      ∃ der der', n.toDer = .ok der ∧ m.toDer = .ok der' ∧ fromDer der = .ok n ∧ der ≠ der' := by
  intro n m
  have hn : n.withRules .standard = .ok n := rfl
  have hm : m.withRules .standard = .ok m := rfl
  rcases fromDerWith_toDer hn with ⟨hRead, hShort, -, hSame⟩
  rcases fromDerWith_toDer hm with ⟨-, -, hDeployable, -⟩
  rcases hShort rfl with ⟨der, hDer⟩
  rcases hDeployable (.inl rfl) with ⟨der', hDer'⟩
  refine ⟨hn, hm, der, der', hDer, hDer', hRead der hDer, ?_⟩
  intro hEq
  have hNames := (hSame m .standard der der' hm hDer hDer').1 hEq
  exact absurd (congrArg organisationUnit hNames) (by decide)

end Name
end MemberNames
