import MemberNames.Proofs.Name.Canonical
import MemberNames.Proofs.Name.Reencoding
import MemberNames.Proofs.Rules.Comparison

/-!
# What sources denote

A text denotes a name if it lists the attributes of the name, in any order and with types and values
in any of their spellings. A principal denotes it if its sets carry them, again in any order and in
any of the admissible encodings. What a source denotes is what it is read as, as far as the rules
accept it.

* `Name.Source.Denotes`: sources and the names that they denote
* `Name.Source.read_eq_ok_iff`: what a source is read as
-/

namespace MemberNames
namespace Name

theorem parseWith_eq_ok_iff {s : Text} {rules : Rules} {n : Name} :
    parseWith s rules = .ok n ↔
      ∃ rdns pairs, Rdn.Lists s rdns ∧ Rdn.Resolves rdns pairs ∧ pairs.Perm n.attributes ∧
        n.withRules rules = .ok n := by
  constructor
  · intro h
    rcases Result.bind_eq_ok_iff.1 h with ⟨rdns, hRdns, hName⟩
    have hDecompose := Result.mapError_eq_ok_iff.1 hRdns
    rcases exists_pairs_of_ofRdns hName with ⟨pairs, hResolves, hPerm⟩
    have hNe : rdns ≠ [] := by
      rintro rfl
      cases hResolves
      exact n.attributes_ne_nil hPerm.nil_eq.symm
    exact ⟨rdns, pairs, Rdn.lists_of_decompose hDecompose hNe, hResolves, hPerm,
      withRules_of_ofRdns hName⟩
  · rintro ⟨rdns, pairs, hLists, hResolves, hPerm, hValid⟩
    rw [parseWith_of_lists hLists hResolves hPerm]
    exact hValid

namespace Source

/-- A source and a name whose attributes it has, each once. -/
inductive Denotes : Source → Name → Prop where
  | text {s : Text} {rdns : List Rdn} {pairs : List (Attribute × Text)} {n : Name} :
      Rdn.Lists s rdns → Rdn.Resolves rdns pairs → pairs.Perm n.attributes → Denotes (.text s) n
  | principal {octets : Octets} {values : List Principal.TypedValue}
      {pairs : List (Attribute × Text)} {n : Name} :
      Principal.IsPrincipal octets (values.map fun v => [v]) →
        List.Forall₂ Principal.TypedValue.Carries values pairs → pairs.Perm n.attributes →
          Denotes (.principal octets) n
  | fields (n : Name) : Denotes (.fields n) n

/-- A source is read as the name that it denotes, if the name satisfies the rules, and as no
other. -/
theorem read_eq_ok_iff {source : Source} {rules : Rules} {n : Name} :
    source.read rules = .ok n ↔ source.Denotes n ∧ n.Satisfies rules := by
  have hSelf : n.withRules rules = .ok n ↔ n.Satisfies rules := by
    rw [withRules_eq_ok_iff]
    exact and_iff_right rfl
  cases source with
  | text s =>
      rw [read, parseWith_eq_ok_iff]
      constructor
      · rintro ⟨rdns, pairs, hLists, hResolves, hPerm, hValid⟩
        exact ⟨.text hLists hResolves hPerm, hSelf.1 hValid⟩
      · rintro ⟨hDenotes, hValid⟩
        cases hDenotes with
        | text hLists hResolves hPerm =>
            exact ⟨_, _, hLists, hResolves, hPerm, hSelf.2 hValid⟩
  | principal octets =>
      rw [read, fromDerWith_eq_ok_iff]
      constructor
      · rintro ⟨values, pairs, hPrincipal, hCarries, hPerm, hValid⟩
        exact ⟨.principal hPrincipal hCarries hPerm, hSelf.1 hValid⟩
      · rintro ⟨hDenotes, hValid⟩
        cases hDenotes with
        | principal hPrincipal hCarries hPerm =>
            exact ⟨_, _, hPrincipal, hCarries, hPerm, hSelf.2 hValid⟩
  | fields fields =>
      rw [read, withRules_eq_ok_iff]
      constructor
      · rintro ⟨rfl, hValid⟩
        exact ⟨.fields n, hValid⟩
      · rintro ⟨hDenotes, hValid⟩
        cases hDenotes with
        | fields => exact ⟨rfl, hValid⟩

end Source
end Name
end MemberNames
