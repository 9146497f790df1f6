import MemberNames.Proofs.Json
import MemberNames.Proofs.Name.Mapping
import MemberNames.Proofs.Text.Basic
import MemberNames.Report

/-!
# Reports

A report in JSON is an object of texts with distinct keys. It tells all that is known of an accepted
name and nothing but the reason of a rejected input, on a line of its own.

* `Report.isAccepted_ofResult`: the verdict on the result of reading a name
* `Report.exitCode_eq_one_iff`, `Report.exitCode_append`: the exit code for a batch
* `Report.Tells`, `Report.tells_render`: what the object on a line tells
* `Report.IsJsonLines`, `Report.isJsonLines_concat`: reports one after the other
-/

namespace MemberNames

/-! ## Verdicts and exit codes -/

namespace Report

theorem isAccepted_ofResult {input : Text} {result : Except NameError Name} :
    (ofResult input result).isAccepted = false ↔ ∃ e, result = .error e := by
  cases result with
  | ok n => simp [ofResult, isAccepted]
  | error e => simp [ofResult, isAccepted]

theorem isAccepted_ofResult_iff {input : Text} {result : Except NameError Name} :
    (ofResult input result).isAccepted ↔ ∃ n, result = .ok n := by
  cases result with
  | ok n => simp [ofResult, isAccepted]
  | error e => simp [ofResult, isAccepted]

theorem exitCode_eq_zero_iff {rs : List Report} :
    exitCode rs = 0 ↔ ∀ r ∈ rs, r.isAccepted := by
  rw [exitCode, ← List.all_eq_true]
  split
  · rename_i hAll
    exact iff_of_true rfl hAll
  · rename_i hAll
    exact iff_of_false (by decide) hAll

theorem exitCode_eq_one_iff {rs : List Report} :
    exitCode rs = 1 ↔ ∃ r ∈ rs, r.isAccepted = false := by
  rw [exitCode]
  split
  · rename_i hAll
    have hAccepted := List.all_eq_true.1 hAll
    simp only [Nat.zero_ne_one, false_iff, not_exists, not_and, Bool.not_eq_false]
    exact hAccepted
  · rename_i hAll
    simpa using hAll

theorem exitCode_le_one (rs : List Report) : exitCode rs ≤ 1 := by
  rw [exitCode]
  split <;> decide

/-- A batch fails if one of its parts does. -/
theorem exitCode_append (rs rs' : List Report) :
    exitCode (rs ++ rs') = max (exitCode rs) (exitCode rs') := by
  simp only [exitCode, List.all_append]
  cases rs.all isAccepted <;> cases rs'.all isAccepted <;> rfl

/-- Accepted reports do not count. -/
theorem exitCode_filter (quiet : Bool) (rs : List Report) :
    exitCode (rs.filter fun r => !(quiet && r.isAccepted)) = exitCode rs := by
  have hCounts : ∀ r : Report, (!!(quiet && r.isAccepted) || r.isAccepted) = r.isAccepted := by
    intro r
    cases quiet <;> cases r.isAccepted <;> rfl
  simp only [exitCode, List.all_filter, hCounts]

/-! ## Members -/

/-- What the members of an object have for an accepted name, with the principal form in hex if there
is to be one. -/
structure HasName (get : Text → Option Text) (n : Name) (der : Option Text) : Prop where
  canonical : get "canonical".toList = some n.canonical
  der : get "der".toList = der
  commonName : get "common_name".toList = n.commonName
  organisationUnit : get "organisation_unit".toList = n.organisationUnit
  organisation : get "organisation".toList = some n.organisation
  locality : get "locality".toList = some n.locality
  state : get "state".toList = n.state
  country : get "country".toList = some n.country
  error : get "error".toList = none
  others : ∀ key, (get key).isSome →
    key ∈ ["input", "canonical", "der", "common_name", "organisation_unit", "organisation",
      "locality", "state", "country"].map String.toList

/-- What the members of an object have for a rejected input. -/
structure HasReason (get : Text → Option Text) (reason : Text) : Prop where
  error : get "error".toList = some reason
  others : ∀ key, (get key).isSome → key = "input".toList ∨ key = "error".toList

/-- What the members of an object have for a report. -/
structure HasReport (get : Text → Option Text) (r : Report) : Prop where
  input : get "input".toList = some r.input
  verdict :
    match r.verdict with
    | .accepted n der => HasName get n der
    | .rejected reason => HasReason get reason

/-- A line that holds an object with distinct keys, and the report that the object tells. -/
def Tells (line : Text) (r : Report) : Prop :=
  ∃ members, Json.object? line = some members ∧ (members.map Prod.fst).Nodup ∧
    HasReport (fun key => members.lookup key) r

/-- The keys besides those of fields. -/
def leadingKeys : List Text :=
  ["input".toList, "canonical".toList, "der".toList, "error".toList]

/-- All keys are distinct. -/
theorem nodup_keys : (leadingKeys ++ Attribute.all.map fieldKey).Nodup := by
  decide

theorem fieldKey_injective {a b : Attribute} (h : fieldKey a = fieldKey b) : a = b :=
  List.inj_on_of_nodup_map (List.Nodup.of_append_right nodup_keys) (Name.mem_all a)
    (Name.mem_all b) h

theorem fieldKey_ne (a : Attribute) {key : Text} (h : key ∈ leadingKeys) : fieldKey a ≠ key := by
  rintro rfl
  exact List.disjoint_of_nodup_append nodup_keys h (List.mem_map_of_mem (Name.mem_all a))

theorem map_fst_fields_sublist (r : Report) :
    (r.fields.map Prod.fst).Sublist (leadingKeys ++ Attribute.all.map fieldKey) := by
  rcases r with ⟨input, verdict⟩
  cases verdict with
  | accepted n der =>
      have hDer : ((der.map fun hex => ("der".toList, hex)).toList.map Prod.fst).Sublist
          ["der".toList, "error".toList] := by
        cases der with
        | none => exact List.nil_sublist _
        | some hex => exact List.cons_sublist_cons.2 (List.nil_sublist _)
      have hAll : (n.attributes.map Prod.fst).Sublist Attribute.all := by
        rw [Name.map_fst_attributes]
        exact List.filter_sublist
      have hFields :
          ((n.attributes.map fun pair => (fieldKey pair.1, pair.2)).map Prod.fst).Sublist
            (Attribute.all.map fieldKey) := by
        have hKeys := hAll.map fieldKey
        rw [List.map_map] at hKeys ⊢
        exact hKeys
      rw [fields, List.map_cons, List.map_cons, List.map_append]
      exact ((hDer.append hFields).cons_cons _).cons_cons _
  | rejected reason =>
      have hSublist : ["input".toList, "error".toList].Sublist
          (leadingKeys ++ Attribute.all.map fieldKey) := by
        decide
      exact hSublist

theorem nodup_fields (r : Report) : (r.fields.map Prod.fst).Nodup :=
  (map_fst_fields_sublist r).nodup nodup_keys

/-- With distinct keys, a key finds every member that has it. -/
theorem lookup_eq_some_iff_mem {members : List (Text × Text)} (h : (members.map Prod.fst).Nodup)
    {key value : Text} : members.lookup key = some value ↔ (key, value) ∈ members := by
  induction members with
  | nil =>
      simp
  | cons member members ih =>
      rcases member with ⟨key', value'⟩
      rw [List.map_cons, List.nodup_cons] at h
      rw [List.lookup_cons, List.mem_cons, Prod.mk.injEq]
      by_cases hKey : key = key'
      · subst hKey
        have hOthers : (key, value) ∉ members := by
          intro hMem
          exact h.1 (List.mem_map.2 ⟨(key, value), hMem, rfl⟩)
        simp [hOthers, eq_comm]
      · rw [beq_false_of_ne hKey]
        simp [hKey, ih h.2]

theorem lookup_fields_eq_some_iff {r : Report} {key value : Text} :
    r.fields.lookup key = some value ↔ (key, value) ∈ r.fields :=
  lookup_eq_some_iff_mem (nodup_fields r)

theorem mem_fields_accepted_iff {input key value : Text} {n : Name} {der : Option Text} :
    (key, value) ∈ (⟨input, .accepted n der⟩ : Report).fields ↔
      (key = "input".toList ∧ value = input) ∨ (key = "canonical".toList ∧ value = n.canonical) ∨
        (der = some value ∧ "der".toList = key) ∨
          ∃ a, n.get? a = some value ∧ fieldKey a = key := by
  simp [fields, Name.mem_attributes_iff]

theorem lookup_fieldKey (input : Text) (n : Name) (der : Option Text) (a : Attribute) :
    (⟨input, .accepted n der⟩ : Report).fields.lookup (fieldKey a) = n.get? a := by
  have hKey : ∀ key ∈ leadingKeys, fieldKey a ≠ key := fun _ => fieldKey_ne a
  apply Option.ext
  intro v
  rw [lookup_fields_eq_some_iff, mem_fields_accepted_iff]
  constructor
  · rintro (⟨h, -⟩ | ⟨h, -⟩ | ⟨-, h⟩ | ⟨b, hb, h⟩)
    · exact absurd h (hKey _ (by decide))
    · exact absurd h (hKey _ (by decide))
    · exact absurd h.symm (hKey _ (by decide))
    · rw [← fieldKey_injective h]
      exact hb
  · intro h
    exact .inr (.inr (.inr ⟨a, h, rfl⟩))

theorem lookup_der (input : Text) (n : Name) (der : Option Text) :
    (⟨input, .accepted n der⟩ : Report).fields.lookup "der".toList = der := by
  apply Option.ext
  intro hex
  rw [lookup_fields_eq_some_iff, mem_fields_accepted_iff]
  constructor
  · rintro (⟨h, -⟩ | ⟨h, -⟩ | ⟨h, -⟩ | ⟨a, -, h⟩)
    · exact absurd h (by decide)
    · exact absurd h (by decide)
    · exact h
    · exact absurd h (fieldKey_ne a (by decide))
  · intro h
    exact .inr (.inr (.inl ⟨h, rfl⟩))

theorem hasName_fields (input : Text) (n : Name) (der : Option Text) :
    HasName (fun key => (⟨input, .accepted n der⟩ : Report).fields.lookup key) n der where
  canonical := lookup_fields_eq_some_iff.2 (mem_fields_accepted_iff.2 (.inr (.inl ⟨rfl, rfl⟩)))
  der := lookup_der input n der
  commonName := lookup_fieldKey input n der .commonName
  organisationUnit := lookup_fieldKey input n der .organisationUnit
  organisation := lookup_fieldKey input n der .organisation
  locality := lookup_fieldKey input n der .locality
  state := lookup_fieldKey input n der .state
  country := lookup_fieldKey input n der .country
  error := by
    rw [Option.eq_none_iff_forall_ne_some]
    intro v
    rw [Ne, lookup_fields_eq_some_iff, mem_fields_accepted_iff]
    rintro (⟨h, -⟩ | ⟨h, -⟩ | ⟨-, h⟩ | ⟨a, -, h⟩)
    · exact absurd h (by decide)
    · exact absurd h (by decide)
    · exact absurd h (by decide)
    · exact absurd h (fieldKey_ne a (by decide))
  others := by
    intro key hKey
    rcases Option.isSome_iff_exists.1 hKey with ⟨v, hv⟩
    rcases mem_fields_accepted_iff.1 (lookup_fields_eq_some_iff.1 hv) with
      ⟨rfl, -⟩ | ⟨rfl, -⟩ | ⟨-, rfl⟩ | ⟨a, -, rfl⟩
    · decide
    · decide
    · decide
    · cases a <;> decide

theorem hasReason_fields (input reason : Text) :
    HasReason (fun key => (⟨input, .rejected reason⟩ : Report).fields.lookup key) reason := by
  refine ⟨?_, ?_⟩
  · exact lookup_fields_eq_some_iff.2 (List.mem_cons_of_mem _ List.mem_cons_self)
  · intro key hKey
    rcases Option.isSome_iff_exists.1 hKey with ⟨value, hValue⟩
    rcases List.mem_cons.1 (lookup_fields_eq_some_iff.1 hValue) with hPair | hPair
    · exact .inl (Prod.mk.inj hPair).1
    · exact .inr (Prod.mk.inj (List.mem_singleton.1 hPair)).1

/-- A report in JSON is read back, every text character for character. -/
theorem tells_render (r : Report) : Tells r.toJson.render r := by
  refine ⟨r.fields, Json.object?_render r.fields, nodup_fields r,
    lookup_fields_eq_some_iff.2 ?_, ?_⟩
  · exact List.mem_cons_self
  · rcases r with ⟨input, verdict⟩
    cases verdict with
    | accepted n der => exact hasName_fields input n der
    | rejected reason => exact hasReason_fields input reason

/-! ## Lines -/

/-- Whether an output is JSON lines only, one for each report in order. -/
structure IsJsonLines (o : Output) (rs : List Report) : Prop where
  err : o.err = []
  out : ∃ lines, Text.splitOn '\n' o.out = lines ++ [[]] ∧ List.Forall₂ Tells lines rs

/-- What is written of reports in JSON. -/
theorem concat_map_print_json (text : Report → Text) (rs : List Report) :
    Output.concat (rs.map (print .json text)) =
      ⟨(rs.map fun r => r.toJson.render).flatMap (· ++ ['\n']), []⟩ := by
  simp [Output.concat, List.flatMap_map, print]

theorem isJsonLines_concat {text : Report → Text} (rs : List Report) :
    IsJsonLines (.concat (rs.map (print .json text))) rs := by
  have hNoNewline : ∀ line ∈ (rs.map fun r => r.toJson.render), '\n' ∉ line := by
    intro line hLine
    rcases List.mem_map.1 hLine with ⟨r, -, rfl⟩
    exact Json.newline_not_mem_render r.fields
  rw [concat_map_print_json]
  refine ⟨rfl, rs.map fun r => r.toJson.render, ?_, ?_⟩
  · exact Text.splitOn_flatMap hNoNewline
  · rw [List.forall₂_map_left_iff, List.forall₂_same]
    intro r _
    exact tells_render r

/-- Whether a text is an object with a reason for a rejection. -/
def HasError (line : Text) : Prop :=
  ∃ members reason, Json.object? line = some members ∧ members.lookup "error".toList = some reason

/-- The reason is looked up in the members that are read. -/
instance : DecidablePred HasError := fun line =>
  decidable_of_iff
    (((Json.object? line).bind fun members => members.lookup "error".toList).isSome = true) <| by
      simp only [HasError, Option.isSome_iff_exists, Option.bind_eq_some_iff]
      exact exists_comm

theorem Tells.hasError_iff {line : Text} {r : Report} (h : Tells line r) :
    HasError line ↔ r.isAccepted = false := by
  rcases h with ⟨members, hMembers, -, -, hVerdict⟩
  rcases r with ⟨input, verdict⟩
  cases verdict with
  | accepted n der =>
      constructor
      · rintro ⟨members', reason, hMembers', hReason⟩
        rcases Option.some.inj (hMembers.symm.trans hMembers') with rfl
        exact absurd (hReason.symm.trans hVerdict.error) (by simp)
      · intro h
        cases h
  | rejected reason =>
      exact iff_of_true ⟨members, reason, hMembers, hVerdict.error⟩ rfl

theorem exists_hasError_iff {lines : List Text} {rs : List Report}
    (h : List.Forall₂ Tells lines rs) :
    (∃ line ∈ lines, HasError line) ↔ ∃ r ∈ rs, r.isAccepted = false := by
  induction h with
  | nil => simp
  | cons hHead _ ih => simp only [List.exists_mem_cons_iff, hHead.hasError_iff, ih]

/-- There is a line with a reason exactly if the exit code tells so. -/
theorem IsJsonLines.exists_hasError_iff {o : Output} {rs : List Report} (h : IsJsonLines o rs) :
    (∃ line ∈ Text.splitOn '\n' o.out, HasError line) ↔ exitCode rs = 1 := by
  rcases h.out with ⟨lines, hLines, hTells⟩
  have hEmpty : ¬ HasError [] := by
    rintro ⟨members, reason, hMembers, -⟩
    cases hMembers
  rw [hLines, exitCode_eq_one_iff, ← Report.exists_hasError_iff hTells]
  simp [or_and_right, exists_or, hEmpty]

end Report
end MemberNames
