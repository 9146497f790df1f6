import MemberNames.Proofs.Name.Refusal
import Mathlib.Data.List.Perm.Basic

/-!
# The order of attributes

Which name pairs denote does not depend on their order, and neither does what is missing or which
value is refused. What does depend on it is which of several clashing types is reported, an
unsupported or a repeated one, but not that one of them is. Texts and principals whose parts are
reordered lead to reordered pairs.

* `Name.Agree`: results that are the same up to the clash reported
* `Rdn.Assigns.perm`: reordered pairs assign the same attributes
* `Name.agree_ofRdns`, `Name.agree_parseWith`, `Name.agree_fromDerWith`: pairs, texts, principals
* `Name.order_independence`: all three
-/

namespace MemberNames

variable {rules : Rules}

/-! ## Clashes -/

namespace Name

/-- Two results that are the same, or a clash each. -/
inductive Agree : Except NameError Name → Except NameError Name → Prop where
  | same (result : Except NameError Name) :
      Agree result result
  | clash {e e' : NameError} :
      IsClash e → IsClash e' → Agree (.error e) (.error e')

/-- Pairs that do not assign clash. -/
theorem exists_isClash_of_not_assigns {rdns : List Rdn}
    (h : ¬ ∃ pairs, Rdn.Assigns rdns pairs) (rules : Rules) :
    ∃ e, IsClash e ∧ ofRdns rdns rules = .error e := by
  rcases Rdn.assigns_or_clash rdns rules with hAssigns | ⟨e, he, hLeads⟩
  · exact absurd hAssigns h
  · exact ⟨e, he, ofRdns_eq_iff.2 hLeads⟩

end Name

/-! ## Pairs -/

namespace Rdn

/-- What is assigned goes along with the pairs. -/
theorem Assigns.perm {rdns rdns' : List Rdn} {pairs : List (Attribute × Text)}
    (h : Assigns rdns pairs) (hPerm : rdns.Perm rdns') :
    ∃ pairs', Assigns rdns' pairs' ∧ pairs'.Perm pairs := by
  rcases List.perm_comp_forall₂ hPerm.symm h.resolves with ⟨pairs', hResolves, hSame⟩
  exact ⟨pairs', ⟨hResolves, (hSame.map Prod.fst).nodup_iff.2 h.nodup⟩, hSame⟩

end Rdn

namespace Name

theorem ofRdns_eq_of_assigns {rdns rdns' : List Rdn} {pairs pairs' : List (Attribute × Text)}
    (h : Rdn.Assigns rdns pairs) (h' : Rdn.Assigns rdns' pairs') (hPerm : pairs'.Perm pairs) :
    ofRdns rdns rules = ofRdns rdns' rules := by
  rcases Assignment.addAll_of_assigns h with ⟨fields, hAdd, hFields⟩
  rcases Assignment.addAll_of_assigns h' with ⟨fields', hAdd', hFields'⟩
  -- An attribute has the value that it has in some pair.
  have hSame : fields = fields' := by
    funext a
    apply Option.ext
    intro v
    rw [hFields, hFields', hPerm.mem_iff]
  rw [ofRdns, ofRdns, Result.bind_of_ok hAdd, Result.bind_of_ok hAdd', hSame]

theorem agree_ofRdns {rdns rdns' : List Rdn} (hPerm : rdns.Perm rdns') :
    Agree (ofRdns rdns rules) (ofRdns rdns' rules) := by
  by_cases h : ∃ pairs, Rdn.Assigns rdns pairs
  · rcases h with ⟨pairs, hPairs⟩
    rcases hPairs.perm hPerm with ⟨pairs', hPairs', hSame⟩
    rw [ofRdns_eq_of_assigns hPairs hPairs' hSame]
    exact .same _
  · have h' : ¬ ∃ pairs, Rdn.Assigns rdns' pairs := by
      rintro ⟨pairs', hPairs'⟩
      rcases hPairs'.perm hPerm.symm with ⟨pairs, hPairs, -⟩
      exact h ⟨pairs, hPairs⟩
    rcases exists_isClash_of_not_assigns h rules with ⟨e, he, hError⟩
    rcases exists_isClash_of_not_assigns h' rules with ⟨e', he', hError'⟩
    rw [hError, hError']
    exact .clash he he'

/-! ## Texts -/

theorem agree_parseWith {s s' : Text} {segments segments' : List Text} {rdns : List Rdn}
    (h : Segment.cut s = .ok segments) (h' : Segment.cut s' = .ok segments')
    (hPerm : segments.Perm segments') (hRead : Rdn.decompose s = .ok rdns) :
    Agree (parseWith s rules) (parseWith s' rules) := by
  have hEach : List.Forall₂ (fun segment r => Rdn.ofSegment segment = .ok r) segments rdns := by
    rw [Rdn.decompose, h] at hRead
    exact Result.mapM_eq_ok_iff_forall₂.1 hRead
  rcases List.perm_comp_forall₂ hPerm.symm hEach with ⟨rdns', hEach', hSame⟩
  have hRead' : Rdn.decompose s' = .ok rdns' := by
    rw [Rdn.decompose, h']
    exact Result.mapM_eq_ok_iff_forall₂.2 hEach'
  rw [parseWith, parseWith, hRead, hRead']
  exact agree_ofRdns hSame.symm

/-! ## Principals -/

/-- The sets of a principal can be put together in any order. -/
theorem isPrincipal_of_perm {octets : Octets} {sets sets' : List (List Principal.TypedValue)}
    (h : Principal.IsPrincipal octets sets) (hPerm : sets.Perm sets') :
    Principal.IsPrincipal (Principal.sequenceElement sets').toOctets sets' := by
  refine ⟨rfl, ?_, ?_, ?_⟩
  · have hShort := h.short
    rw [h.octets_eq] at hShort
    exact Nat.le_trans (Principal.length_container_perm (hPerm.symm.map _)) hShort
  · intro set hSet
    exact h.distinct set (hPerm.mem_iff.2 hSet)
  · intro set hSet
    exact h.values set (hPerm.mem_iff.2 hSet)

theorem agree_fromDerWith {octets octets' : Octets}
    {sets sets' : List (List Principal.TypedValue)} {rdns : List Rdn}
    (h : Principal.IsPrincipal octets sets) (h' : Principal.IsPrincipal octets' sets')
    (hPerm : sets.Perm sets') (hHolds : List.Forall₂ Principal.Holds sets rdns) :
    Agree (fromDerWith octets rules) (fromDerWith octets' rules) := by
  rcases List.perm_comp_forall₂ hPerm.symm hHolds with ⟨rdns', hHolds', hSame⟩
  rw [fromDerWith, fromDerWith, (Principal.rdns_eq_ok_iff h).2 hHolds,
    (Principal.rdns_eq_ok_iff h').2 hHolds']
  exact agree_ofRdns hSame.symm

/-! ## All three -/

/-- Reordered pairs, segments of a text and sets of a principal lead to the same result, or to a
clash each. -/
theorem order_independence (rules : Rules) :
    (∀ rdns rdns' : List Rdn, rdns.Perm rdns' →
      Agree (ofRdns rdns rules) (ofRdns rdns' rules)) ∧
    (∀ s segments segments' rdns, Segment.cut s = .ok segments → Rdn.decompose s = .ok rdns →
      segments.Perm segments' →
        Segment.cut ([','].intercalate segments') = .ok segments' ∧
          ∀ s', Segment.cut s' = .ok segments' →
            Agree (parseWith s rules) (parseWith s' rules)) ∧
    (∀ octets sets sets' rdns, Principal.IsPrincipal octets sets →
      List.Forall₂ Principal.Holds sets rdns → sets.Perm sets' →
        let octets' := (Principal.sequenceElement sets').toOctets
        Principal.IsPrincipal octets' sets' ∧
          Agree (fromDerWith octets rules) (fromDerWith octets' rules)) := by
  refine ⟨?_, ?_, ?_⟩
  · intro rdns rdns' hPerm
    exact agree_ofRdns hPerm
  · intro s segments segments' rdns hCut hRead hPerm
    exact ⟨Segment.cut_intercalate hCut hPerm,
      fun s' hCut' => agree_parseWith hCut hCut' hPerm hRead⟩
  · intro octets sets sets' rdns hPrincipal hHolds hPerm
    have hPrincipal' := isPrincipal_of_perm hPrincipal hPerm
    exact ⟨hPrincipal', agree_fromDerWith hPrincipal hPrincipal' hPerm hHolds⟩

/-- Which clash is reported depends on the order. -/
theorem order_independence_clash :
    let segments : List Text := [['O', '=', 'A'], ['O', '=', 'B'], ['X', '=', '1']]
    let s : Text := [','].intercalate segments
    let s' : Text := ['X', '=', '1', ';', 'O', '=', 'A', ',', 'O', '=', 'B']
    let rdns : List Rdn := [⟨['O'], ['A']⟩, ⟨['O'], ['B']⟩, ⟨['X'], ['1']⟩]
    let organisation : Principal.TypedValue :=
      ⟨⟨[2, 5, 4, 10]⟩, [0x55, 0x04, 0x0A], ⟨Der.Tag.utf8String, [0x41]⟩⟩
    let serialNumber : Principal.TypedValue :=
      ⟨⟨[2, 5, 4, 5]⟩, [0x55, 0x04, 0x05], ⟨Der.Tag.printableString, [0x31]⟩⟩
    let octets := (Principal.sequenceElement [[organisation], [serialNumber]]).toOctets
    let octets' := (Principal.sequenceElement [[serialNumber], [organisation]]).toOctets
    parse s = .error (.duplicateAttribute .organisation) ∧
      parse s' = .error (.unsupportedAttribute ['X']) ∧ Agree (parse s) (parse s') ∧
        Agree (ofRdns rdns .standard) (ofRdns rdns.reverse .standard) ∧
          Agree (fromDer octets) (fromDer octets') := by
  intro segments s s' rdns organisation serialNumber octets octets'
  rcases order_independence .standard with ⟨hPairs, hText, hDer⟩
  have hRead : Rdn.decompose s = .ok rdns := rfl
  have hSegments : segments.Perm [['X', '=', '1'], ['O', '=', 'A'], ['O', '=', 'B']] := by decide
  have hValues : ∀ v ∈ [organisation, serialNumber], v.IsWellFormed := by
    have hOrganisation : organisation.IsWellFormed :=
      ⟨ObjectId.ofContents?_eq_some_iff.1 rfl, rfl⟩
    have hSerialNumber : serialNumber.IsWellFormed :=
      ⟨ObjectId.ofContents?_eq_some_iff.1 rfl, rfl⟩
    simpa using ⟨hOrganisation, hSerialNumber⟩
  have hPrincipal : Principal.IsPrincipal octets [[organisation], [serialNumber]] :=
    @Principal.isPrincipal_of_values [organisation, serialNumber] (by decide) hValues
  have hHolds : List.Forall₂ Principal.Holds [[organisation], [serialNumber]]
      [⟨organisation.oid.toDotted, ['A']⟩, ⟨serialNumber.oid.toDotted, ['1']⟩] :=
    .cons (.intro (.inl rfl) rfl) (.cons (.intro (.inr (.inl rfl)) rfl) .nil)
  exact ⟨rfl, rfl, (hText s segments _ _ rfl hRead hSegments).2 s' rfl,
    hPairs rdns _ rdns.reverse_perm.symm,
    (hDer octets _ _ _ hPrincipal hHolds (List.Perm.swap _ _ _)).2⟩

end Name
end MemberNames
