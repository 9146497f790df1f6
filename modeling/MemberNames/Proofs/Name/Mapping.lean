import MemberNames.Name.Mapping
import MemberNames.Proofs.Attribute
import MemberNames.Proofs.Result
import Mathlib.Data.List.Basic
import Mathlib.Data.List.Induction
import Mathlib.Data.List.Nodup

/-!
# Which name pairs determine

The fields that pairs determine depend on the set of the pairs only. Pairs whose types resolve to
the present attributes of a name, each once and in any order, therefore give back that name, as far
as the rules admit it.

* `Name.mem_attributes_iff`, `Name.nodup_attributes`: the present attributes of a name
* `Assignment.addAll_of_resolves`: the fields that pairs determine
* `Name.ofRdns_of_resolves`: the name that pairs determine
* `Rdn.Assigns`, `Rdn.assigns_or_clash`: pairs that have fields, and the others
* `Rdn.LeadsTo`, `Name.ofRdns_eq_iff`: what pairs lead to, the first of several errors included
-/

namespace MemberNames

/-! ## Present attributes -/

namespace Name

theorem mem_all (a : Attribute) : a ∈ Attribute.all := by
  cases a <;> decide

/-- A name is its fields. -/
theorem ext_get? {m n : Name} (h : ∀ a, m.get? a = n.get? a) : m = n := by
  cases m with
  | mk cn ou o l st c =>
      cases n with
      | mk cn' ou' o' l' st' c' =>
          have hOrganisation : o = o' := Option.some.inj (h .organisation)
          have hLocality : l = l' := Option.some.inj (h .locality)
          have hCountry : c = c' := Option.some.inj (h .country)
          rw [show cn = cn' from h .commonName, show ou = ou' from h .organisationUnit,
            show st = st' from h .state, hOrganisation, hLocality, hCountry]

theorem mem_attributes_iff {n : Name} {a : Attribute} {v : Text} :
    (a, v) ∈ n.attributes ↔ n.get? a = some v := by
  rw [attributes, List.mem_filterMap]
  constructor
  · intro h
    rcases h with ⟨b, -, hb⟩
    rcases Option.map_eq_some_iff.1 hb with ⟨w, hw, hPair⟩
    cases hPair
    exact hw
  · intro h
    refine ⟨a, mem_all a, ?_⟩
    rw [h]
    rfl

/-- The attributes are a choice from the list of all of them. -/
theorem map_fst_attributes (n : Name) :
    n.attributes.map Prod.fst = Attribute.all.filter fun a => (n.get? a).isSome := by
  rw [attributes, List.map_filterMap, ← List.filterMap_eq_filter]
  apply List.filterMap_congr
  intro a _
  cases h : n.get? a with
  | none => simp [Option.guard, h]
  | some v => simp [Option.guard, h]

/-- No attribute is present twice. -/
theorem nodup_attributes (n : Name) : (n.attributes.map Prod.fst).Nodup := by
  have hAll : Attribute.all.Nodup := by decide
  rw [map_fst_attributes]
  exact hAll.filter _

theorem attributes_ne_nil (n : Name) : n.attributes ≠ [] := by
  have hMem : (Attribute.organisation, n.organisation) ∈ n.attributes :=
    mem_attributes_iff.2 rfl
  exact List.ne_nil_of_mem hMem

end Name

/-! ## Fields from pairs -/

namespace Rdn

/-- Pairs whose types denote the given attributes, in the same order. -/
def Resolves (rdns : List Rdn) (pairs : List (Attribute × Text)) : Prop :=
  List.Forall₂ (fun rdn pair => Attribute.ofToken? rdn.attributeType = some pair.1 ∧
    rdn.value = pair.2) rdns pairs

end Rdn

namespace Assignment

theorem set_eq_some_iff {fields : Assignment} {a b : Attribute} {v w : Text}
    (hFresh : fields a = none) :
    fields.set a v b = some w ↔ (b, w) = (a, v) ∨ fields b = some w := by
  by_cases hb : b = a
  · subst hb
    rw [set, if_pos rfl, hFresh]
    simp [eq_comm]
  · rw [set, if_neg hb]
    simp [hb]

/-- Pairs with fresh attributes, each at most once, are added as they are. -/
theorem addAll_of_resolves {fields : Assignment} {rdns : List Rdn}
    {pairs : List (Attribute × Text)} (h : Rdn.Resolves rdns pairs)
    (hNodup : (pairs.map Prod.fst).Nodup) (hFresh : ∀ pair ∈ pairs, fields pair.1 = none) :
    ∃ fields', fields.addAll rdns = .ok fields' ∧
      ∀ a v, fields' a = some v ↔ (a, v) ∈ pairs ∨ fields a = some v := by
  induction h generalizing fields with
  | nil =>
      refine ⟨fields, rfl, ?_⟩
      intro a v
      simp
  | @cons rdn pair rdns pairs hPair _ ih =>
      rcases hPair with ⟨hToken, hValue⟩
      rcases List.forall_mem_cons.1 hFresh with ⟨hNone, hRest⟩
      rcases List.nodup_cons.1 hNodup with ⟨hNotMem, hNodup'⟩
      -- The attribute that was set is none of those to come.
      have hFresh' : ∀ other ∈ pairs, fields.set pair.1 rdn.value other.1 = none := by
        intro other hOther
        have hNe : other.1 ≠ pair.1 := by
          intro hSame
          apply hNotMem
          rw [← hSame]
          exact List.mem_map_of_mem hOther
        rw [set, if_neg hNe]
        exact hRest other hOther
      rcases ih hNodup' hFresh' with ⟨fields', hAdd, hFields⟩
      refine ⟨fields', ?_, ?_⟩
      · rw [addAll, hToken]
        simp only [hNone, Option.isSome_none, Bool.false_eq_true, if_false]
        exact hAdd
      · intro a v
        rw [hFields, set_eq_some_iff hNone, hValue, List.mem_cons, ← or_assoc]
        exact or_congr_left or_comm

theorem toFields_get? (n : Name) : toFields n.get? = .ok n :=
  rfl

end Assignment

namespace Name

/-- Pairs for the present attributes of a name, in any order, denote this name. -/
theorem ofRdns_of_resolves {n : Name} {rdns : List Rdn} {pairs : List (Attribute × Text)}
    (h : Rdn.Resolves rdns pairs) (hPerm : pairs.Perm n.attributes) (rules : Rules) :
    ofRdns rdns rules = n.withRules rules := by
  have hNodup : (pairs.map Prod.fst).Nodup :=
    (hPerm.map Prod.fst).nodup_iff.2 n.nodup_attributes
  have hFresh : ∀ pair ∈ pairs, Assignment.empty pair.1 = none := by
    intro pair _
    rfl
  rcases Assignment.addAll_of_resolves h hNodup hFresh with ⟨fields, hAdd, hFields⟩
  -- Both assign a value to an attribute exactly if the pair is among those given.
  have hSame : fields = n.get? := by
    funext a
    apply Option.ext
    intro v
    rw [hFields, hPerm.mem_iff, mem_attributes_iff]
    exact or_iff_left (by intro hNone; cases hNone)
  rw [ofRdns, Result.bind_of_ok hAdd, hSame, Result.bind_of_ok (Assignment.toFields_get? n)]

end Name

/-! ## What pairs lead to -/

/-- Whether an error is about an unsupported or a repeated type. -/
def Name.IsClash : NameError → Prop
  | .unsupportedAttribute _ | .duplicateAttribute _ => True
  | _ => False

namespace Rdn

/-- Pairs whose types denote the given attributes, no attribute twice. -/
structure Assigns (rdns : List Rdn) (pairs : List (Attribute × Text)) : Prop where
  resolves : Resolves rdns pairs
  nodup : (pairs.map Prod.fst).Nodup

/-- What pairs lead to under rules. An unsupported or repeated type counts before all else, the
first one if there are several; then the first mandatory attribute that is absent. -/
inductive LeadsTo (rules : Rules) (rdns : List Rdn) : Except NameError Name → Prop where
  | unsupported {before after : List Rdn} {r : Rdn} {pairs : List (Attribute × Text)} :
      rdns = before ++ r :: after → Assigns before pairs →
        Attribute.ofToken? r.attributeType = none →
          LeadsTo rules rdns (.error (.unsupportedAttribute r.attributeType))
  | duplicate {before after : List Rdn} {r : Rdn} {pairs : List (Attribute × Text)}
      {a : Attribute} :
      rdns = before ++ r :: after → Assigns before pairs →
        Attribute.ofToken? r.attributeType = some a → a ∈ pairs.map Prod.fst →
          LeadsTo rules rdns (.error (.duplicateAttribute a))
  | missing {pairs : List (Attribute × Text)} {before after : List Attribute} {a : Attribute} :
      Assigns rdns pairs → [.organisation, .locality, .country] = before ++ a :: after →
        (∀ b ∈ before, b ∈ pairs.map Prod.fst) → a ∉ pairs.map Prod.fst →
          LeadsTo rules rdns (.error (.missingAttribute a))
  | validated {pairs : List (Attribute × Text)} {fields : Name} :
      Assigns rdns pairs → (∀ a v, fields.get? a = some v ↔ (a, v) ∈ pairs) →
        LeadsTo rules rdns (fields.withRules rules)

namespace Assigns

theorem nil : Assigns [] [] :=
  ⟨.nil, List.nodup_nil⟩

/-- One more pair with a fresh attribute. -/
theorem concat {rdns : List Rdn} {pairs : List (Attribute × Text)} (h : Assigns rdns pairs)
    {r : Rdn} {a : Attribute} (hToken : Attribute.ofToken? r.attributeType = some a)
    (hFresh : a ∉ pairs.map Prod.fst) : Assigns (rdns ++ [r]) (pairs ++ [(a, r.value)]) := by
  refine ⟨List.rel_append h.resolves (.cons ⟨hToken, rfl⟩ .nil), ?_⟩
  rw [List.map_append, List.nodup_append]
  refine ⟨h.nodup, List.nodup_singleton a, ?_⟩
  intro b hb c hc hSame
  simp only [List.map_cons, List.map_nil, List.mem_singleton] at hc
  rw [hSame, hc] at hb
  exact hFresh hb

end Assigns
end Rdn

namespace Assignment

theorem addAll_append (fields : Assignment) (rdns rdns' : List Rdn) :
    fields.addAll (rdns ++ rdns') = (fields.addAll rdns >>= fun f => f.addAll rdns') := by
  induction rdns generalizing fields with
  | nil =>
      rfl
  | cons r rdns ih =>
      rw [List.cons_append, addAll, addAll]
      cases Attribute.ofToken? r.attributeType with
      | none => rfl
      | some a =>
          by_cases hSet : (fields a).isSome
          · simp [hSet]
          · simp [hSet, ih]

/-- Pairs that assign are all added, and nothing else is. -/
theorem addAll_of_assigns {rdns : List Rdn} {pairs : List (Attribute × Text)}
    (h : Rdn.Assigns rdns pairs) :
    ∃ fields, empty.addAll rdns = .ok fields ∧ ∀ a v, fields a = some v ↔ (a, v) ∈ pairs := by
  have hFresh : ∀ pair ∈ pairs, empty pair.1 = none := by
    intro pair _
    rfl
  rcases addAll_of_resolves h.resolves h.nodup hFresh with ⟨fields, hAdd, hFields⟩
  refine ⟨fields, hAdd, ?_⟩
  intro a v
  rw [hFields]
  exact or_iff_left (by intro hNone; cases hNone)

theorem isSome_iff_mem {fields : Assignment} {pairs : List (Attribute × Text)}
    (h : ∀ a v, fields a = some v ↔ (a, v) ∈ pairs) (a : Attribute) :
    (fields a).isSome ↔ a ∈ pairs.map Prod.fst := by
  rw [Option.isSome_iff_exists, List.mem_map]
  constructor
  · rintro ⟨v, hv⟩
    exact ⟨(a, v), (h a v).1 hv, rfl⟩
  · rintro ⟨⟨b, v⟩, hMem, rfl⟩
    exact ⟨v, (h b v).2 hMem⟩

theorem required_eq_ok_iff {fields : Assignment} {a : Attribute} {v : Text} :
    fields.required a = .ok v ↔ fields a = some v := by
  rw [required]
  cases fields a with
  | none => simp
  | some w => simp

theorem required_eq_error_iff {fields : Assignment} {a : Attribute} {e : NameError} :
    fields.required a = .error e ↔ fields a = none ∧ e = .missingAttribute a := by
  rw [required]
  cases fields a with
  | none => simp [eq_comm]
  | some w => simp

theorem toFields_eq_ok {fields : Assignment} {n : Name} (h : fields.toFields = .ok n) :
    n.get? = fields := by
  rcases Result.bind_eq_ok_iff.1 h with ⟨o, hO, h⟩
  rcases Result.bind_eq_ok_iff.1 h with ⟨l, hL, h⟩
  rcases Result.bind_eq_ok_iff.1 h with ⟨c, hC, h⟩
  cases h
  funext a
  cases a with
  | organisation => exact (required_eq_ok_iff.1 hO).symm
  | locality => exact (required_eq_ok_iff.1 hL).symm
  | country => exact (required_eq_ok_iff.1 hC).symm
  | commonName | organisationUnit | state => rfl

theorem toFields_eq_error_iff {fields : Assignment} {e : NameError} :
    fields.toFields = .error e ↔
      ∃ before a after, [Attribute.organisation, .locality, .country] = before ++ a :: after ∧
        (∀ b ∈ before, (fields b).isSome) ∧ fields a = none ∧ e = .missingAttribute a := by
  -- The mandatory attributes are looked up one after the other.
  have hForM : fields.toFields = .error e ↔
      [Attribute.organisation, .locality, .country].mapM fields.required = .error e := by
    cases hO : fields.required .organisation with
    | error e' => simp [toFields, hO]
    | ok o =>
        cases hL : fields.required .locality with
        | error e' => simp [toFields, hO, hL]
        | ok l =>
            cases hC : fields.required .country with
            | error e' => simp [toFields, hO, hL, hC]
            | ok c => simp [toFields, hO, hL, hC, pure, Except.pure]
  rw [hForM, Result.mapM_eq_error_iff]
  simp only [required_eq_ok_iff, required_eq_error_iff, Option.isSome_iff_exists]

end Assignment

namespace Name

theorem ofRdns_of_leadsTo {rdns : List Rdn} {rules : Rules} {result : Except NameError Name}
    (h : Rdn.LeadsTo rules rdns result) : ofRdns rdns rules = result := by
  cases h with
  | @unsupported before after r pairs hSplit hBefore hToken =>
      rcases Assignment.addAll_of_assigns hBefore with ⟨fields, hAdd, -⟩
      simp [ofRdns, hSplit, Assignment.addAll_append, hAdd, Assignment.addAll, hToken]
  | @duplicate before after r pairs a hSplit hBefore hToken hMem =>
      rcases Assignment.addAll_of_assigns hBefore with ⟨fields, hAdd, hFields⟩
      have hSet := (Assignment.isSome_iff_mem hFields a).2 hMem
      simp [ofRdns, hSplit, Assignment.addAll_append, hAdd, Assignment.addAll, hToken, hSet]
  | @missing pairs before after a hAssigns hOrder hBefore hAbsent =>
      rcases Assignment.addAll_of_assigns hAssigns with ⟨fields, hAdd, hFields⟩
      have hNone : fields a = none := by
        rw [← Option.not_isSome_iff_eq_none, Assignment.isSome_iff_mem hFields]
        exact hAbsent
      have hError : fields.toFields = .error (.missingAttribute a) :=
        Assignment.toFields_eq_error_iff.2 ⟨before, a, after, hOrder,
          fun b hb => (Assignment.isSome_iff_mem hFields b).2 (hBefore b hb), hNone, rfl⟩
      simp [ofRdns, hAdd, hError]
  | @validated pairs n hAssigns hPairs =>
      rcases Assignment.addAll_of_assigns hAssigns with ⟨fields, hAdd, hFields⟩
      have hSame : fields = n.get? := by
        funext a
        apply Option.ext
        intro v
        rw [hFields, hPairs]
      simp [ofRdns, hAdd, hSame, Assignment.toFields_get?]

end Name

namespace Rdn

/-- Either all pairs assign, or there is a first one that clashes with those before it. -/
theorem assigns_or_first (rdns : List Rdn) :
    (∃ pairs, Assigns rdns pairs) ∨
      ∃ before r after pairs, rdns = before ++ r :: after ∧ Assigns before pairs ∧
        ∀ a, Attribute.ofToken? r.attributeType = some a → a ∈ pairs.map Prod.fst := by
  induction rdns using List.reverseRecOn with
  | nil =>
      exact .inl ⟨[], .nil⟩
  | append_singleton rdns r ih =>
      rcases ih with ⟨pairs, hPairs⟩ | ⟨before, r', after, pairs, rfl, hBefore, hClash⟩
      · by_cases hFresh : ∃ a, Attribute.ofToken? r.attributeType = some a ∧
            a ∉ pairs.map Prod.fst
        · rcases hFresh with ⟨a, hToken, hFresh⟩
          exact .inl ⟨_, hPairs.concat hToken hFresh⟩
        · refine .inr ⟨rdns, r, [], pairs, rfl, hPairs, ?_⟩
          intro a hToken
          by_contra hMem
          exact hFresh ⟨a, hToken, hMem⟩
      · exact .inr ⟨before, r', after ++ [r], pairs, by simp, hBefore, hClash⟩

/-- Pairs that do not assign lead to a clash. -/
theorem assigns_or_clash (rdns : List Rdn) (rules : Rules) :
    (∃ pairs, Assigns rdns pairs) ∨ ∃ e, Name.IsClash e ∧ LeadsTo rules rdns (.error e) := by
  rcases assigns_or_first rdns with hAssigns | ⟨before, r, after, pairs, hSplit, hBefore, hClash⟩
  · exact .inl hAssigns
  · cases hToken : Attribute.ofToken? r.attributeType with
    | none =>
        exact .inr ⟨.unsupportedAttribute r.attributeType, trivial,
          .unsupported hSplit hBefore hToken⟩
    | some a =>
        exact .inr ⟨.duplicateAttribute a, trivial,
          .duplicate hSplit hBefore hToken (hClash a hToken)⟩

/-- Pairs lead to what their reader says. -/
theorem leadsTo_ofRdns (rdns : List Rdn) (rules : Rules) :
    LeadsTo rules rdns (Name.ofRdns rdns rules) := by
  rcases assigns_or_clash rdns rules with ⟨pairs, hPairs⟩ | ⟨e, -, he⟩
  · rcases Assignment.addAll_of_assigns hPairs with ⟨fields, hAdd, hFields⟩
    cases hToFields : fields.toFields with
    | error e =>
        rcases Assignment.toFields_eq_error_iff.1 hToFields with
          ⟨before, a, after, hOrder, hBefore, hNone, rfl⟩
        have hMissing : LeadsTo rules rdns (.error (.missingAttribute a)) := by
          refine .missing hPairs hOrder ?_ ?_
          · intro b hb
            exact (Assignment.isSome_iff_mem hFields b).1 (hBefore b hb)
          · rw [← Assignment.isSome_iff_mem hFields, hNone]
            simp
        rw [Name.ofRdns_of_leadsTo hMissing]
        exact hMissing
    | ok n =>
        have hValidated : LeadsTo rules rdns (n.withRules rules) := by
          refine .validated hPairs ?_
          rw [Assignment.toFields_eq_ok hToFields]
          exact hFields
        rw [Name.ofRdns_of_leadsTo hValidated]
        exact hValidated
  · rw [Name.ofRdns_of_leadsTo he]
    exact he

end Rdn

/-- Pairs lead to one result, the one that their reader gives. -/
theorem Name.ofRdns_eq_iff {rdns : List Rdn} {rules : Rules} {result : Except NameError Name} :
    ofRdns rdns rules = result ↔ Rdn.LeadsTo rules rdns result := by
  constructor
  · rintro rfl
    exact Rdn.leadsTo_ofRdns rdns rules
  · exact ofRdns_of_leadsTo

end MemberNames
