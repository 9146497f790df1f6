import MemberNames.Name.Principal
import MemberNames.Proofs.Der.Element
import MemberNames.Proofs.ObjectId
import MemberNames.Proofs.Rdn.Spelling

/-!
# The structure of principals

A principal is a sequence of sets of typed values, each layer an element that holds the elements of
the next one and nothing else. Reading a principal succeeds exactly on such octets and finds the
sets that they hold. The greatest length bounds the octets as a whole, since an element is shorter
than what contains it.

* `Principal.sequenceElement`, `Principal.IsPrincipal`: octets and the sets that they hold
* `Principal.length_container_mono`, `Principal.length_container_perm`: what holds longer elements,
  or the same ones in another order
* `Principal.typedValue_eq_ok_iff`, `Principal.typedValues_eq_ok_iff`: the inner layers
* `Principal.sets_eq_ok_iff`: reading finds exactly the sets of a principal
* `Principal.isPrincipal_of_values`: sets with one value each
* `Principal.Holds`, `Principal.Faulty`: sets with a pair and sets without one
* `Principal.exists_rdns_eq_encoding_iff`, `Principal.rdns_eq_malformed_iff`,
  `Principal.rdns_eq_ok_iff`: what the pairs of a principal are, or why it has none
-/

namespace MemberNames
namespace Principal

open Der

/-! ## Layers -/

/-- The element that a type and a value are read from. -/
def TypedValue.element (v : TypedValue) : Element :=
  container Tag.sequence [⟨Tag.objectIdentifier, v.oidContents⟩, v.value]

def setElement (set : List TypedValue) : Element :=
  container Tag.set (set.map TypedValue.element)

def sequenceElement (sets : List (List TypedValue)) : Element :=
  container Tag.sequence (sets.map setElement)

/-- Whether the octets of the type denote it, and the value is an element of whatever type. -/
structure TypedValue.IsWellFormed (v : TypedValue) : Prop where
  oid : ObjectId.Denotes v.oidContents v.oid
  value : Tag.isKnown v.value.tag

/-- Octets and the sets of typed values that they hold, no set the same value twice. -/
structure IsPrincipal (octets : Octets) (sets : List (List TypedValue)) : Prop where
  octets_eq : octets = (sequenceElement sets).toOctets
  short : octets.length ≤ maxLength
  distinct : ∀ set ∈ sets, set.Nodup
  values : ∀ set ∈ sets, ∀ v ∈ set, v.IsWellFormed

/-! ## Lengths -/

theorem length_toOctets_le_content {tag : UInt8} {e : Element} {es : List Element} (h : e ∈ es) :
    e.toOctets.length ≤ (container tag es).content.length := by
  rw [container, List.flatMap_def]
  exact (List.sublist_flatten_of_mem (List.mem_map_of_mem h)).length_le

theorem length_content_le_content {tag : UInt8} {e : Element} {es : List Element} (h : e ∈ es) :
    e.content.length ≤ (container tag es).content.length :=
  Nat.le_trans e.length_content_le (length_toOctets_le_content h)

theorem length_container_mono {tag : UInt8} {es es' : List Element}
    (h : List.Forall₂ (fun e e' => e.toOctets.length ≤ e'.toOctets.length) es es') :
    (container tag es).toOctets.length ≤ (container tag es').toOctets.length := by
  apply Element.length_toOctets_mono
  induction h with
  | nil =>
      exact Nat.le_refl _
  | cons hHead _ ih =>
      simp only [container, List.flatMap_cons, List.length_append] at ih ⊢
      exact Nat.add_le_add hHead ih

theorem length_container_perm {tag : UInt8} {es es' : List Element} (h : es.Perm es') :
    (container tag es).toOctets.length ≤ (container tag es').toOctets.length :=
  Element.length_toOctets_mono (Nat.le_of_eq (h.flatMap_right Element.toOctets).length_eq)

theorem length_setElement_le {set : List TypedValue} {ss : List (List TypedValue)}
    (h : set ∈ ss) : (setElement set).content.length ≤ (sequenceElement ss).content.length :=
  length_content_le_content (List.mem_map_of_mem h)

theorem TypedValue.length_element_le {v : TypedValue} {set : List TypedValue} (h : v ∈ set) :
    v.element.content.length ≤ (setElement set).content.length :=
  length_content_le_content (List.mem_map_of_mem h)

theorem TypedValue.length_value_le (v : TypedValue) :
    v.value.content.length ≤ v.element.content.length :=
  length_content_le_content (by simp)

theorem IsPrincipal.length_content_le {octets : Octets} {ss : List (List TypedValue)}
    (h : IsPrincipal octets ss) : (sequenceElement ss).content.length ≤ maxLength := by
  have hShort := h.short
  rw [h.octets_eq] at hShort
  exact Nat.le_trans (sequenceElement ss).length_content_le hShort

/-- The values of a principal can be read one by one. -/
theorem IsPrincipal.readable {octets : Octets} {ss : List (List TypedValue)}
    (h : IsPrincipal octets ss) {set : List TypedValue} (hSet : set ∈ ss) {v : TypedValue}
    (hv : v ∈ set) : v.value.Readable := by
  refine ⟨(h.values set hSet v hv).value, ?_⟩
  calc
    v.value.content.length ≤ v.element.content.length := v.length_value_le
    _ ≤ (setElement set).content.length := TypedValue.length_element_le hv
    _ ≤ (sequenceElement ss).content.length := length_setElement_le hSet
    _ ≤ maxLength := h.length_content_le

/-! ## Reading layer by layer -/

theorem bind_elements_eq_ok_iff {tag : UInt8} {e : Element} {es : List Element} :
    (expect tag e >>= fun e' => elements e'.content) = .ok es ↔
      e = container tag es ∧ ∀ e' ∈ es, e'.Readable := by
  by_cases hTag : e.tag = tag
  · have hExpect : expect tag e = .ok e := if_pos hTag
    rw [Result.bind_of_ok hExpect, elements_eq_ok_iff]
    refine and_congr_left fun _ => ?_
    cases e with
    | mk tag' content => simp_all [container]
  · have hExpect : expect tag e = .error (.unexpectedTag e.tag) := if_neg hTag
    rw [hExpect]
    constructor
    · intro h
      cases h
    · rintro ⟨rfl, -⟩
      exact absurd rfl hTag

theorem expect_eq_ok_iff {tag : UInt8} {e e' : Element} :
    expect tag e = .ok e' ↔ e' = e ∧ e.tag = tag := by
  rw [expect]
  by_cases hTag : e.tag = tag
  · simp [hTag, eq_comm]
  · simp [hTag]

/-- The elements of a typed value are read one by one and the first one as an identifier. -/
theorem typedValue_eq_ok_iff (e : Element) (v : TypedValue) :
    typedValue e = .ok v ↔
      e = v.element ∧ v.IsWellFormed ∧ v.value.content.length ≤ maxLength := by
  constructor
  · intro h
    rcases Result.bind_eq_ok_iff.1 h with ⟨pair, hPair, hRest⟩
    rcases Result.bind_eq_ok_iff.1 hRest with ⟨es, hElements, hValue⟩
    rcases bind_elements_eq_ok_iff.1 (Result.bind_eq_ok_iff.2 ⟨pair, hPair, hElements⟩) with
      ⟨rfl, hReadable⟩
    split at hValue
    · rename_i type value
      rcases Result.bind_eq_ok_iff.1 hValue with ⟨type', hType, hOid⟩
      rcases expect_eq_ok_iff.1 hType with ⟨rfl, hTag⟩
      split at hOid
      · cases hOid
      · rename_i oid hDenotes
        cases hOid
        have hForm : type' = ⟨Tag.objectIdentifier, type'.content⟩ := by rw [← hTag]
        have hLast := hReadable value (by simp)
        refine ⟨?_, ⟨ObjectId.ofContents?_eq_some_iff.1 hDenotes, hLast.known⟩, hLast.short⟩
        rw [TypedValue.element, ← hForm]
    · cases hValue
  · rintro ⟨rfl, ⟨hOid, hKnown⟩, hShort⟩
    have hType : Element.Readable ⟨Tag.objectIdentifier, v.oidContents⟩ :=
      ⟨rfl, Nat.le_trans hOid.length_le (by decide)⟩
    have hElements : (expect Tag.sequence v.element >>= fun e => elements e.content) =
        .ok [⟨Tag.objectIdentifier, v.oidContents⟩, v.value] :=
      bind_elements_eq_ok_iff.2 ⟨rfl, by simpa using ⟨hType, hKnown, hShort⟩⟩
    rcases Result.bind_eq_ok_iff.1 hElements with ⟨pair, hPair, hContent⟩
    rw [typedValue, Result.bind_of_ok hPair, Result.bind_of_ok hContent]
    refine (Result.bind_of_ok (expect_eq_ok_iff.2 ⟨rfl, rfl⟩)).trans ?_
    simp only [ObjectId.ofContents?_eq_some_iff.2 hOid]

theorem typedValues_eq_ok_iff (e : Element) (set : List TypedValue) :
    typedValues e = .ok set ↔
      e = setElement set ∧ set.Nodup ∧
        ∀ v ∈ set, v.element.content.length ≤ maxLength ∧ v.IsWellFormed ∧
          v.value.content.length ≤ maxLength := by
  constructor
  · intro h
    rcases Result.bind_eq_ok_iff.1 h with ⟨outer, hOuter, hRest⟩
    rcases Result.bind_eq_ok_iff.1 hRest with ⟨es, hElements, hRest⟩
    rcases Result.bind_eq_ok_iff.1 hRest with ⟨values, hValues, hDistinct⟩
    rcases bind_elements_eq_ok_iff.1 (Result.bind_eq_ok_iff.2 ⟨outer, hOuter, hElements⟩) with
      ⟨rfl, hReadable⟩
    rcases (Result.mapM_eq_ok_iff_map typedValue_eq_ok_iff).1 hValues with ⟨rfl, hEach⟩
    split at hDistinct
    · rename_i hNodup
      cases hDistinct
      refine ⟨rfl, hNodup, ?_⟩
      intro v hv
      exact ⟨(hReadable _ (List.mem_map_of_mem hv)).short, hEach v hv⟩
    · cases hDistinct
  · rintro ⟨rfl, hNodup, hEach⟩
    have hElements : (expect Tag.set (setElement set) >>= fun e => elements e.content) =
        .ok (set.map TypedValue.element) := by
      refine bind_elements_eq_ok_iff.2 ⟨rfl, ?_⟩
      intro e he
      rcases List.mem_map.1 he with ⟨v, hv, rfl⟩
      exact ⟨rfl, (hEach v hv).1⟩
    have hValues : (set.map TypedValue.element).mapM typedValue = .ok set :=
      (Result.mapM_eq_ok_iff_map typedValue_eq_ok_iff).2 ⟨rfl, fun v hv => (hEach v hv).2⟩
    rcases Result.bind_eq_ok_iff.1 hElements with ⟨outer, hOuter, hContent⟩
    rw [typedValues, Result.bind_of_ok hOuter, Result.bind_of_ok hContent,
      Result.bind_of_ok hValues, if_pos hNodup]

/-- The sets that are read are those that the octets hold. -/
theorem sets_eq_ok_iff {octets : Octets} {ss : List (List TypedValue)} :
    sets octets = .ok ss ↔ IsPrincipal octets ss := by
  constructor
  · intro h
    rcases Result.bind_eq_ok_iff.1 h with ⟨whole, hWhole, hRest⟩
    rcases Result.bind_eq_ok_iff.1 hRest with ⟨outer, hOuter, hRest⟩
    rcases Result.bind_eq_ok_iff.1 hRest with ⟨es, hElements, hSets⟩
    rcases bind_elements_eq_ok_iff.1 (Result.bind_eq_ok_iff.2 ⟨outer, hOuter, hElements⟩) with
      ⟨rfl, hReadable⟩
    rcases (Result.mapM_eq_ok_iff_map typedValues_eq_ok_iff).1 hSets with ⟨rfl, hEach⟩
    rcases Element.ofOctets_eq_ok_iff.1 hWhole with ⟨rfl, hSequence⟩
    exact ⟨rfl, hSequence.short, fun set hSet => (hEach set hSet).1,
      fun set hSet v hv => ((hEach set hSet).2 v hv).2.1⟩
  · intro h
    rcases h.octets_eq with rfl
    have hWhole : Element.ofOctets (sequenceElement ss).toOctets = .ok (sequenceElement ss) :=
      Element.ofOctets_eq_ok_iff.2 ⟨rfl, rfl, h.short⟩
    -- The bound of the outermost content is passed down from layer to layer.
    have hSet : ∀ set ∈ ss, (setElement set).content.length ≤ maxLength := by
      intro set hMem
      exact Nat.le_trans (length_setElement_le hMem) h.length_content_le
    have hElements : (expect Tag.sequence (sequenceElement ss) >>= fun e => elements e.content) =
        .ok (ss.map setElement) := by
      refine bind_elements_eq_ok_iff.2 ⟨rfl, ?_⟩
      intro e he
      rcases List.mem_map.1 he with ⟨set, hMem, rfl⟩
      exact ⟨rfl, hSet set hMem⟩
    have hSets : (ss.map setElement).mapM typedValues = .ok ss := by
      refine (Result.mapM_eq_ok_iff_map typedValues_eq_ok_iff).2 ⟨rfl, ?_⟩
      intro set hMem
      refine ⟨h.distinct set hMem, ?_⟩
      intro v hv
      exact ⟨Nat.le_trans (TypedValue.length_element_le hv) (hSet set hMem),
        h.values set hMem v hv, (h.readable hMem hv).short⟩
    rcases Result.bind_eq_ok_iff.1 hElements with ⟨outer, hOuter, hContent⟩
    rw [sets, Result.bind_of_ok hWhole, Result.bind_of_ok hOuter, Result.bind_of_ok hContent]
    exact hSets

/-- Octets hold one list of sets. -/
theorem IsPrincipal.unique {octets : Octets} {sets sets' : List (List TypedValue)}
    (h : IsPrincipal octets sets) (h' : IsPrincipal octets sets') : sets = sets' :=
  Except.ok.inj ((sets_eq_ok_iff.2 h).symm.trans (sets_eq_ok_iff.2 h'))

theorem IsPrincipal.values_unique {octets : Octets} {values values' : List TypedValue}
    (h : IsPrincipal octets (values.map fun v => [v]))
    (h' : IsPrincipal octets (values'.map fun v => [v])) : values = values' :=
  List.map_injective_iff.2 (fun _ _ hSame => (List.cons.inj hSame).1) (h.unique h')

/-- Sets with one value each. -/
theorem isPrincipal_of_values {values : List TypedValue}
    (hShort : (sequenceElement (values.map fun v => [v])).toOctets.length ≤ maxLength)
    (h : ∀ v ∈ values, v.IsWellFormed) :
    IsPrincipal (sequenceElement (values.map fun v => [v])).toOctets
      (values.map fun v => [v]) := by
  refine ⟨rfl, hShort, ?_, ?_⟩
  · intro set hSet
    rcases List.mem_map.1 hSet with ⟨v, -, rfl⟩
    simp
  · intro set hSet v hv
    rcases List.mem_map.1 hSet with ⟨w, hw, rfl⟩
    rcases List.mem_singleton.1 hv with rfl
    exact h v hw

/-! ## Sets as pairs -/

/-- A set and the pair that it holds: one type, and one directory string in UTF-8. -/
inductive Holds : List TypedValue → Rdn → Prop where
  | intro {v : TypedValue} {t : Text} :
      Value.IsStringTag v.value.tag → Utf8.encode t = v.value.content →
        Holds [v] ⟨v.oid.toDotted, t⟩

/-- A set that holds no pair, and what is wrong with it. -/
inductive Faulty : List TypedValue → Defect → Prop where
  | empty :
      Faulty [] .emptyRdn
  | multiValued (v w : TypedValue) (set : List TypedValue) :
      Faulty (v :: w :: set) .multiValued
  | unsupportedType {v : TypedValue} :
      ¬ Value.IsStringTag v.value.tag → Faulty [v] (.unsupportedValueType v.value.tag)
  | notUtf8 {v : TypedValue} :
      Value.IsStringTag v.value.tag → (∀ t, Utf8.encode t ≠ v.value.content) →
        Faulty [v] .valueNotUtf8

/-- Sets of which the first one without a pair has the defect. -/
def FirstFaulty (ss : List (List TypedValue)) (d : Defect) : Prop :=
  ∃ before set after, ss = before ++ set :: after ∧ (∀ s ∈ before, ∃ r, Holds s r) ∧ Faulty set d

theorem rdn_eq_ok_iff {set : List TypedValue} {r : Rdn} : rdn set = .ok r ↔ Holds set r := by
  constructor
  · intro h
    rw [rdn.eq_def] at h
    split at h
    · cases h
    · rename_i v
      rcases Result.map_eq_ok_iff.1 h with ⟨t, ht, rfl⟩
      rcases Value.ofElement_eq_ok_iff.1 ht with ⟨hTag, hContent⟩
      exact .intro hTag hContent
    · cases h
  · rintro ⟨hTag, hContent⟩
    exact Result.map_eq_ok_iff.2 ⟨_, Value.ofElement_eq_ok_iff.2 ⟨hTag, hContent⟩, rfl⟩

theorem rdn_eq_error_iff {set : List TypedValue} {d : Defect} :
    rdn set = .error d ↔ Faulty set d := by
  constructor
  · intro h
    rw [rdn.eq_def] at h
    split at h
    · cases h
      exact .empty
    · rename_i v
      rcases Value.ofElement_eq_error_iff.1 (Result.map_eq_error_iff.1 h) with
        ⟨hTag, rfl⟩ | ⟨hTag, hContent, rfl⟩
      · exact .unsupportedType hTag
      · exact .notUtf8 hTag hContent
    · rename_i hNotEmpty hNotSingle
      cases h
      match set with
      | [] => exact absurd rfl hNotEmpty
      | [v] => exact absurd rfl (hNotSingle v)
      | v :: w :: set => exact .multiValued v w set
  · rintro (_ | ⟨v, w, set⟩ | hTag | ⟨hTag, hContent⟩)
    · rfl
    · rfl
    · exact Result.map_eq_error_iff.2 (Value.ofElement_eq_error_iff.2 (.inl ⟨hTag, rfl⟩))
    · exact Result.map_eq_error_iff.2
        (Value.ofElement_eq_error_iff.2 (.inr ⟨hTag, hContent, rfl⟩))

/-! ## Principals as pairs -/

theorem rdns_of_isPrincipal {octets : Octets} {ss : List (List TypedValue)}
    (h : IsPrincipal octets ss) : rdns octets = (ss.mapM rdn).mapError .malformed :=
  Result.bind_of_ok (Result.mapError_eq_ok_iff.2 (sets_eq_ok_iff.2 h))

/-- Octets that are no principal fail as a whole, before any set is looked into. -/
theorem exists_rdns_eq_encoding_iff {octets : Octets} :
    (∃ e, rdns octets = .error (.encoding e)) ↔ ¬ ∃ ss, IsPrincipal octets ss := by
  constructor
  · rintro ⟨e, he⟩ ⟨ss, hPrincipal⟩
    rw [rdns_of_isPrincipal hPrincipal] at he
    rcases Result.mapError_eq_error_iff.1 he with ⟨d, -, hd⟩
    cases hd
  · intro h
    cases hSets : sets octets with
    | error e =>
        have hEncoding : (sets octets).mapError NameError.encoding = .error (.encoding e) :=
          Result.mapError_eq_error_iff.2 ⟨e, hSets, rfl⟩
        exact ⟨e, Result.bind_eq_error_iff.2 (.inl hEncoding)⟩
    | ok ss =>
        exact absurd ⟨ss, sets_eq_ok_iff.1 hSets⟩ h

theorem rdns_eq_malformed_iff {octets : Octets} {ss : List (List TypedValue)}
    (h : IsPrincipal octets ss) {d : Defect} :
    rdns octets = .error (.malformed d) ↔ FirstFaulty ss d := by
  have hError : rdns octets = .error (.malformed d) ↔ ss.mapM rdn = .error d := by
    rw [rdns_of_isPrincipal h, Result.mapError_eq_error_iff]
    simp
  rw [hError, Result.mapM_eq_error_iff]
  simp only [rdn_eq_ok_iff, rdn_eq_error_iff]
  rfl

theorem rdns_eq_ok_iff {octets : Octets} {ss : List (List TypedValue)}
    (h : IsPrincipal octets ss) {rs : List Rdn} :
    rdns octets = .ok rs ↔ List.Forall₂ Holds ss rs := by
  rw [rdns_of_isPrincipal h, Result.mapError_eq_ok_iff, Result.mapM_eq_ok_iff_forall₂]
  simp only [rdn_eq_ok_iff]

end Principal
end MemberNames
