import MemberNames.Proofs.Name.Principal
import MemberNames.Proofs.Name.Refusal
import Mathlib.Data.List.Perm.Basic

/-!
# Writing principals again

The reader accepts principals in more than one form: with their attributes in any order, with
strings of three types, and with identifiers in any of the forms that denote them. The writer knows
one form only, and it is never longer than what was read. The two agree exactly on principals with
the order, the string types and the identifiers of the writer; everything else in them is forced.

* `Principal.TypedValue.Carries`: the pair of a typed value
* `Name.fromDerWith_eq_ok_iff`: the principals that are read as a name
* `Principal.IsCanonical`, `Principal.isCanonical_iff`: the form of the writer
* `Name.exists_toDer_of_fromDerWith`: what was read can be written
* `Name.toDer_of_fromDerWith`: reading and writing again
-/

namespace MemberNames
namespace Principal

open Der

/-! ## Pairs of typed values -/

/-- A typed value and the pair that it carries, in any form of the identifier and as a string of any
of the three types. -/
structure TypedValue.Carries (v : TypedValue) (pair : Attribute × Text) : Prop where
  oid : v.oid = pair.1.oid
  tag : Value.IsStringTag v.value.tag
  content : v.value.content = Utf8.encode pair.2

theorem carries_attributeValues (pairs : List (Attribute × Text)) :
    List.Forall₂ TypedValue.Carries (attributeValues pairs) pairs := by
  rw [attributeValues, List.forall₂_map_left_iff, List.forall₂_same]
  intro pair _
  exact ⟨rfl, isStringTag_stringTag pair.1, rfl⟩

theorem TypedValue.Carries.holds {v : TypedValue} {pair : Attribute × Text} (h : v.Carries pair) :
    Holds [v] ⟨pair.1.oid.toDotted, pair.2⟩ := by
  rw [← h.oid]
  exact .intro h.tag h.content.symm

/-- The pair of a set, with its type resolved, is the one that its only value carries. -/
theorem Holds.carries {set : List TypedValue} {r : Rdn} {pair : Attribute × Text}
    (h : Holds set r) (hToken : Attribute.ofToken? r.attributeType = some pair.1)
    (hValue : r.value = pair.2) : ∃ v : TypedValue, set = [v] ∧ v.Carries pair := by
  cases h with
  | @intro v t hTag hContent =>
      refine ⟨v, rfl, Attribute.ofToken?_toDotted_eq_some_iff.1 hToken, hTag, ?_⟩
      rw [← hContent, ← hValue]

theorem exists_carries {sets : List (List TypedValue)} {rdns : List Rdn}
    {pairs : List (Attribute × Text)} (hHolds : List.Forall₂ Holds sets rdns)
    (hResolves : Rdn.Resolves rdns pairs) :
    ∃ values, sets = values.map (fun v => [v]) ∧
      List.Forall₂ TypedValue.Carries values pairs := by
  induction hHolds generalizing pairs with
  | nil =>
      cases hResolves
      exact ⟨[], rfl, .nil⟩
  | cons hHead _ ih =>
      cases hResolves with
      | cons hPair hPairs =>
          rcases hHead.carries hPair.1 hPair.2 with ⟨v, rfl, hv⟩
          rcases ih hPairs with ⟨values, rfl, hValues⟩
          exact ⟨v :: values, rfl, .cons hv hValues⟩

theorem holds_of_carries {values : List TypedValue} {pairs : List (Attribute × Text)}
    (h : List.Forall₂ TypedValue.Carries values pairs) :
    List.Forall₂ Holds (values.map fun v => [v])
      (pairs.map fun (a, t) => ⟨a.oid.toDotted, t⟩) := by
  rw [List.forall₂_map_left_iff, List.forall₂_map_right_iff]
  exact h.imp fun _ _ hv => hv.holds

end Principal

namespace Name

open Principal

/-- Pairs that lead to a name are its attributes in some order. -/
theorem perm_attributes {pairs : List (Attribute × Text)} {n : Name}
    (hNodup : (pairs.map Prod.fst).Nodup)
    (h : ∀ a v, n.get? a = some v ↔ (a, v) ∈ pairs) : pairs.Perm n.attributes := by
  rw [List.perm_ext_iff_of_nodup hNodup.of_map n.nodup_attributes.of_map]
  rintro ⟨a, v⟩
  rw [mem_attributes_iff, h]

theorem exists_pairs_of_ofRdns {rdns : List Rdn} {rules : Rules} {n : Name}
    (h : ofRdns rdns rules = .ok n) :
    ∃ pairs, Rdn.Resolves rdns pairs ∧ pairs.Perm n.attributes := by
  have hLeads := ofRdns_eq_iff.1 h
  generalize hResult : (Except.ok n : Except NameError Name) = result at hLeads
  cases hLeads with
  | unsupported _ _ _ | duplicate _ _ _ _ | missing _ _ _ _ =>
      cases hResult
  | @validated pairs fields hAssigns hFields =>
      rcases withRules_eq_ok_iff.1 hResult.symm with ⟨rfl, -⟩
      exact ⟨pairs, hAssigns.resolves, perm_attributes hAssigns.nodup hFields⟩

/-- A principal is read as a name exactly if its sets carry the attributes of the name, one each and
in whatever order, and the name is a valid one. -/
theorem fromDerWith_eq_ok_iff {octets : Octets} {rules : Rules} {n : Name} :
    fromDerWith octets rules = .ok n ↔
      ∃ values pairs, IsPrincipal octets (values.map fun v => [v]) ∧
        List.Forall₂ TypedValue.Carries values pairs ∧ pairs.Perm n.attributes ∧
          n.withRules rules = .ok n := by
  constructor
  · intro h
    rcases Result.bind_eq_ok_iff.1 h with ⟨rdns, hRdns, hName⟩
    rcases Result.bind_eq_ok_iff.1 hRdns with ⟨sets, hSets, -⟩
    have hPrincipal := sets_eq_ok_iff.1 (Result.mapError_eq_ok_iff.1 hSets)
    rcases exists_pairs_of_ofRdns hName with ⟨pairs, hResolves, hPerm⟩
    rcases exists_carries ((rdns_eq_ok_iff hPrincipal).1 hRdns) hResolves with
      ⟨values, rfl, hCarries⟩
    exact ⟨values, pairs, hPrincipal, hCarries, hPerm, withRules_of_ofRdns hName⟩
  · rintro ⟨values, pairs, hPrincipal, hCarries, hPerm, hValid⟩
    have hRdns := (rdns_eq_ok_iff hPrincipal).2 (holds_of_carries hCarries)
    rw [fromDerWith, Result.bind_of_ok hRdns, ofRdns_of_resolves (resolves_pairs pairs) hPerm]
    exact hValid

end Name

/-! ## Lengths -/

namespace Principal

open Der

/-- The identifier of an attribute has no shorter form than the one that is written. -/
theorem length_oid_le {octets : Octets} {oid : ObjectId} (h : ObjectId.Denotes octets oid)
    (a : Attribute) : a.oid.toContents.length ≤ octets.length := by
  have hThree : a.oid.toContents.length = 3 := by
    cases a <;> rfl
  cases h with
  | intro _ hLeast _ _ =>
      rw [hThree, List.length_cons]
      omega

theorem length_rdnElement_le_of_carries {v : TypedValue} {pair : Attribute × Text}
    (h : v.Carries pair) (hDenotes : ObjectId.Denotes v.oidContents v.oid) :
    (rdnElement pair.1 pair.2).toOctets.length ≤ (setElement [v]).toOctets.length := by
  have hType : (Element.toOctets ⟨Tag.objectIdentifier, pair.1.oid.toContents⟩).length ≤
      (Element.toOctets ⟨Tag.objectIdentifier, v.oidContents⟩).length :=
    Element.length_toOctets_mono (length_oid_le hDenotes pair.1)
  have hValue : (Element.toOctets ⟨stringTag pair.1, Utf8.encode pair.2⟩).length ≤
      v.value.toOctets.length :=
    Element.length_toOctets_mono (Nat.le_of_eq (congrArg List.length h.content.symm))
  have hPair : (pairElement pair.1 pair.2).toOctets.length ≤ v.element.toOctets.length :=
    length_container_mono (.cons hType (.cons hValue .nil))
  exact length_container_mono (.cons hPair .nil)

theorem length_principalElement_le_of_carries {octets : Octets} {values : List TypedValue}
    {pairs : List (Attribute × Text)} (h : IsPrincipal octets (values.map fun v => [v]))
    (hCarries : List.Forall₂ TypedValue.Carries values pairs) :
    (principalElement pairs).toOctets.length ≤ octets.length := by
  have hDenotes : ∀ v ∈ values, ObjectId.Denotes v.oidContents v.oid := by
    intro v hv
    exact (h.values [v] (List.mem_map_of_mem hv) v List.mem_cons_self).oid
  have hSets : List.Forall₂ (fun e e' : Element => e.toOctets.length ≤ e'.toOctets.length)
      (pairs.map fun (a, t) => rdnElement a t) ((values.map fun v => [v]).map setElement) := by
    rw [List.map_map, List.forall₂_map_left_iff, List.forall₂_map_right_iff]
    clear h
    induction hCarries with
    | nil =>
        exact .nil
    | cons hHead _ ih =>
        rcases List.forall_mem_cons.1 hDenotes with ⟨hv, hRest⟩
        exact .cons (length_rdnElement_le_of_carries hHead hv) (ih hRest)
  rw [h.octets_eq]
  exact length_container_mono hSets

end Principal

namespace Name

open Principal

/-- The principal form of a name is no longer than any principal that is read as the name. -/
theorem exists_toDer_of_fromDerWith {octets : Octets} {rules : Rules} {n : Name}
    (h : fromDerWith octets rules = .ok n) :
    ∃ der, n.toDer = .ok der ∧ der.length ≤ octets.length := by
  rcases fromDerWith_eq_ok_iff.1 h with ⟨values, pairs, hPrincipal, hCarries, hPerm, -⟩
  have hLength : (principalElement n.attributes.reverse).toOctets.length ≤ octets.length :=
    calc (principalElement n.attributes.reverse).toOctets.length
      _ ≤ (principalElement pairs).toOctets.length :=
        length_container_perm (((List.reverse_perm _).trans hPerm.symm).map _)
      _ ≤ octets.length := length_principalElement_le_of_carries hPrincipal hCarries
  exact ⟨_, toDer_eq_ok_iff.2 ⟨rfl, Nat.le_trans hLength hPrincipal.short⟩, hLength⟩

end Name

/-! ## The form of the writer -/

namespace Principal

open Der

/-- The string type and the octets of the identifier are those of the writer. -/
structure TypedValue.IsCanonical (v : TypedValue) : Prop where
  type : v.value.tag =
    if v.oid = Attribute.country.oid then Tag.printableString else Tag.utf8String
  contents : v.oidContents = v.oid.toContents

/-- Typed values in the form of the writer. -/
structure IsCanonical (values : List TypedValue) : Prop where
  /-- Least significant first; attributes that are absent are skipped. -/
  order : (values.map TypedValue.oid).Sublist
    ([.country, .state, .locality, .organisation, .organisationUnit, .commonName].map
      Attribute.oid)
  values : ∀ v ∈ values, v.IsCanonical

theorem stringTag_eq (a : Attribute) :
    stringTag a =
      if a.oid = Attribute.country.oid then Tag.printableString else Tag.utf8String := by
  cases a <;> rfl

theorem TypedValue.Carries.eq_attributeValue_iff {v : TypedValue} {pair : Attribute × Text}
    (h : v.Carries pair) : v = attributeValue pair.1 pair.2 ↔ v.IsCanonical := by
  constructor
  · rintro rfl
    exact ⟨stringTag_eq pair.1, rfl⟩
  · intro hCanonical
    have hType := hCanonical.type
    have hContents := hCanonical.contents
    rw [h.oid, ← stringTag_eq] at hType
    rw [h.oid] at hContents
    cases v with
    | mk oid oidContents value =>
        cases value with
        | mk tag content =>
            rw [attributeValue, ← hType, ← hContents, ← h.oid, ← h.content]

/-- Everything in the form of the writer is determined by the pairs. -/
theorem isCanonical_iff {values : List TypedValue} {pairs : List (Attribute × Text)}
    (h : List.Forall₂ TypedValue.Carries values pairs) :
    IsCanonical values ↔
      (pairs.map Prod.fst).Sublist Attribute.all.reverse ∧ values = attributeValues pairs := by
  have hOids : values.map TypedValue.oid = (pairs.map Prod.fst).map Attribute.oid := by
    rw [List.map_map, ← List.forall₂_eq_eq_eq, List.forall₂_map_left_iff,
      List.forall₂_map_right_iff]
    exact h.imp fun _ _ hv => hv.oid
  -- The values one by one: the string type and the identifier are those of the writer.
  have hValues : values = attributeValues pairs ↔ ∀ v ∈ values, v.IsCanonical := by
    clear hOids
    induction h with
    | nil =>
        simp [attributeValues]
    | cons hv _ ih =>
        rw [attributeValues, List.map_cons, List.cons.injEq, ← attributeValues,
          List.forall_mem_cons, ih, hv.eq_attributeValue_iff]
  rw [hValues]
  constructor
  · intro hCanonical
    have hOrder := hCanonical.order
    rw [hOids] at hOrder
    rcases List.sublist_map_iff.1 hOrder with ⟨attributes, hSublist, hSame⟩
    rw [List.map_injective_iff.2 (fun _ _ => Attribute.oid_inj) hSame]
    exact ⟨hSublist, hCanonical.values⟩
  · rintro ⟨hSublist, hEach⟩
    refine ⟨?_, hEach⟩
    rw [hOids]
    exact hSublist.map Attribute.oid

end Principal

/-! ## Reading and writing -/

namespace Name

open Principal

theorem sublist_attributes_reverse (n : Name) :
    (n.attributes.reverse.map Prod.fst).Sublist Attribute.all.reverse := by
  rw [List.map_reverse, map_fst_attributes]
  exact List.filter_sublist.reverse

/-- The attributes of a name, in an order that is that of the writer. -/
theorem eq_attributes_reverse {n : Name} {pairs : List (Attribute × Text)}
    (hPerm : pairs.Perm n.attributes)
    (hOrder : (pairs.map Prod.fst).Sublist Attribute.all.reverse) :
    pairs = n.attributes.reverse := by
  have hAll : Attribute.all.reverse.Nodup := by decide
  have hBack : pairs.Perm n.attributes.reverse := hPerm.trans (List.reverse_perm _).symm
  have hKeys : pairs.map Prod.fst = n.attributes.reverse.map Prod.fst :=
    (hAll.perm_iff_eq_of_sublist hOrder n.sublist_attributes_reverse).1 (hBack.map Prod.fst)
  -- The name has one value for each attribute.
  have hForm : ∀ pairs' : List (Attribute × Text), pairs'.Perm n.attributes →
      (pairs'.map Prod.fst).map (fun a => (a, (n.get? a).getD [])) = pairs' := by
    intro pairs' hPerm'
    rw [List.map_map]
    refine (List.map_congr_left ?_).trans (List.map_id pairs')
    rintro ⟨a, v⟩ hMem
    have hv := mem_attributes_iff.1 (hPerm'.mem_iff.1 hMem)
    simp [hv]
  rw [← hForm pairs hPerm, hKeys, hForm _ (List.reverse_perm _)]

/-- The octets that are written for a name are those that were read exactly if these have the form
of the writer. -/
theorem toDer_eq_self_iff {octets der : Octets} {n : Name} {values : List TypedValue}
    {pairs : List (Attribute × Text)} (hDer : n.toDer = .ok der)
    (hPrincipal : IsPrincipal octets (values.map fun v => [v]))
    (hCarries : List.Forall₂ TypedValue.Carries values pairs) (hPerm : pairs.Perm n.attributes) :
    der = octets ↔ IsCanonical values := by
  rcases toDer_eq_ok_iff.1 hDer with ⟨hForm, hShort⟩
  constructor
  · rintro rfl
    -- The octets hold the sets that were written, and no others.
    have hWritten := isPrincipal_principalElement (hForm ▸ hShort)
    rw [← hForm] at hWritten
    rw [hPrincipal.values_unique hWritten]
    exact (isCanonical_iff (carries_attributeValues _)).2 ⟨n.sublist_attributes_reverse, rfl⟩
  · intro hCanonical
    rcases (isCanonical_iff hCarries).1 hCanonical with ⟨hOrder, rfl⟩
    rw [hForm, hPrincipal.octets_eq, principalElement_eq, eq_attributes_reverse hPerm hOrder]

/-- Reading and writing again. What was read can be written, and it is written as it was exactly if
it had the order, the string types and the identifiers of the writer. What is written is read as the
same name and is written as it is. -/
theorem toDer_of_fromDerWith {octets : Octets} {rules : Rules} {n : Name}
    (h : fromDerWith octets rules = .ok n) :
    ∃ values der, IsPrincipal octets (values.map fun v => [v]) ∧ n.toDer = .ok der ∧
      (der = octets ↔ IsCanonical values) ∧ fromDerWith der rules = .ok n ∧
        (fromDerWith der rules >>= toDer) = .ok der := by
  rcases fromDerWith_eq_ok_iff.1 h with ⟨values, pairs, hPrincipal, hCarries, hPerm, hValid⟩
  rcases exists_toDer_of_fromDerWith h with ⟨der, hDer, -⟩
  have hRead : fromDerWith der rules = .ok n := fromDerWith_of_toDer hValid hDer
  refine ⟨values, der, hPrincipal, hDer, ?_, hRead, ?_⟩
  · exact toDer_eq_self_iff hDer hPrincipal hCarries hPerm
  · rw [hRead]
    exact hDer

/-- The first identifier has a leading zero, and no value has the string type of the writer. -/
theorem toDer_of_fromDerWith_ia5String :
    let values : List TypedValue := [
      ⟨Attribute.organisation.oid, [0x55, 0x04, 0x80, 0x0A], ⟨Der.Tag.ia5String, [0x4A, 0x50]⟩⟩,
      ⟨Attribute.locality.oid, [0x55, 0x04, 0x07], ⟨Der.Tag.printableString, [0xC3, 0xA9]⟩⟩,
      ⟨Attribute.country.oid, [0x55, 0x04, 0x06], ⟨Der.Tag.utf8String, [0x44, 0x45]⟩⟩]
    let octets := (sequenceElement (values.map fun v => [v])).toOctets
    let n : Name := minimal ['J', 'P'] ['é'] ['D', 'E']
    fromDer octets = .ok n ∧
      ∃ der, n.toDer = .ok der ∧ der ≠ octets ∧ fromDer der = .ok n := by
  intro values octets n
  have hOids : ∀ v ∈ values, ObjectId.ofContents? v.oidContents = some v.oid := by decide
  have hTags : ∀ v ∈ values, Der.Tag.isKnown v.value.tag := by decide
  have hPrincipal : IsPrincipal octets (values.map fun v => [v]) :=
    isPrincipal_of_values (by decide) fun v hv =>
      ⟨ObjectId.ofContents?_eq_some_iff.1 (hOids v hv), hTags v hv⟩
  have hRead : fromDer octets = .ok n := by
    refine fromDerWith_eq_ok_iff.2 ⟨values, n.attributes, hPrincipal, ?_, .refl _, rfl⟩
    exact .cons ⟨rfl, .inr (.inr rfl), rfl⟩ (.cons ⟨rfl, .inr (.inl rfl), rfl⟩
      (.cons ⟨rfl, .inl rfl, rfl⟩ .nil))
  rcases toDer_of_fromDerWith hRead with ⟨values', der, hPrincipal', hDer, hSame, hBack, -⟩
  refine ⟨hRead, der, hDer, ?_, hBack⟩
  intro hEq
  have hEach := (hSame.1 hEq).values
  rw [hPrincipal'.values_unique hPrincipal] at hEach
  exact absurd (hEach _ List.mem_cons_self).type (by decide)

end Name
end MemberNames
