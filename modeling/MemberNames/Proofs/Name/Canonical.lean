import MemberNames.Proofs.Name.Mapping
import MemberNames.Proofs.Rdn.Decompose
import MemberNames.Proofs.Text.Escape

/-!
# Reading canonical text

The canonical text of a name derives one pair for each present attribute, with the value that
reading takes out of the quotes it already stood between. Reading the text is therefore the same as
validating the fields with these quotes taken away, and gives the name back if there are none.

* `Escape.spells_value`: what a written value spells
* `Name.lists_canonical`: the pairs that a canonical text derives
* `Name.parseWith_canonical`: reading a canonical text under any rules
-/

namespace MemberNames

/-! ## Written values -/

namespace Lexeme

theorem denotes_map {f : Char → Lexeme} (h : ∀ c, (f c).character? = some c) (s : Text) :
    Denotes (s.map f) s := by
  induction s with
  | nil =>
      exact .nil
  | cons c s ih =>
      exact .cons (h c) ih

end Lexeme

namespace Escape

/-- The lexeme in which a character stands between quotes. -/
def lexeme (c : Char) : Lexeme :=
  if c = '"' || c = '\\' then .escaped c else .char c

theorem written_character (c : Char) : Lexeme.Written (character c) [lexeme c] := by
  rw [character, lexeme]
  by_cases hMark : c = '"' || c = '\\'
  · rw [if_pos hMark, if_pos hMark]
    have hCases : c = '"' ∨ c = '\\' := by simpa using hMark
    rcases hCases with rfl | rfl
    · exact .escaped rfl .nil
    · exact .escaped rfl .nil
  · rw [if_neg hMark, if_neg hMark]
    refine .char ?_ .nil
    rintro rfl
    exact hMark rfl

theorem written_flatMap_character (s : Text) :
    Lexeme.Written (s.flatMap character) (s.map lexeme) := by
  induction s with
  | nil =>
      exact .nil
  | cons c s ih =>
      rw [List.flatMap_cons, List.map_cons]
      exact (written_character c).append ih

theorem character?_lexeme (c : Char) : (lexeme c).character? = some c := by
  rw [lexeme]
  split
  · rfl
  · rfl

theorem isUnit_lexeme (c : Char) : (lexeme c).isUnit Value.isQuotable := by
  rw [lexeme]
  split
  · rfl
  · rename_i hMark
    have hQuote : c ≠ '"' := by
      rintro rfl
      exact hMark rfl
    simp [Lexeme.isUnit, Value.isQuotable, hQuote]

theorem spells_quote (s : Text) : Value.Spells (quote (s.flatMap character)) s := by
  have hNone : Value.IsPadding [] := List.forall_mem_nil _
  have hUnits : ∀ l ∈ s.map lexeme, l.isUnit Value.isQuotable := by
    intro l hl
    rcases List.mem_map.1 hl with ⟨c, -, rfl⟩
    exact isUnit_lexeme c
  exact .quoted hNone hNone (written_flatMap_character s) hUnits
    (Lexeme.denotes_map character?_lexeme s)

theorem of_isSpecial_eq_false {c : Char} (h : isSpecial c = false) :
    c ≠ '\\' ∧ c ≠ '#' ∧ Value.isBare c := by
  simp only [isSpecial, List.contains_eq_mem, List.mem_cons, List.not_mem_nil, or_false,
    decide_eq_false_iff_not, not_or] at h
  simp [Value.isBare, Value.isReserved, h]

theorem spells_plain {v : Text} (hSpecial : ∀ c ∈ v, isSpecial c = false)
    (hHead : ∀ c, v.head? = some c → Text.isPadding c = false)
    (hLast : ∀ c, v.getLast? = some c → Text.isPadding c = false) : Value.Spells v v := by
  have hNone : Value.IsPadding [] := List.forall_mem_nil _
  have hWritten : Lexeme.Written v (v.map .char) :=
    Lexeme.written_map_char fun c hc => (of_isSpecial_eq_false (hSpecial c hc)).1
  have hUnits : ∀ l ∈ v.map Lexeme.char, l.isUnit Value.isBare := by
    intro l hl
    rcases List.mem_map.1 hl with ⟨c, hc, rfl⟩
    exact (of_isSpecial_eq_false (hSpecial c hc)).2.2
  have hFirst : ∀ c, (v.map Lexeme.char).head? = some (.char c) →
      Text.isPadding c = false ∧ c ≠ '#' := by
    intro c hc
    rw [List.head?_map] at hc
    rcases Option.map_eq_some_iff.1 hc with ⟨d, hd, hSame⟩
    rcases Lexeme.char.inj hSame with rfl
    exact ⟨hHead d hd, (of_isSpecial_eq_false (hSpecial d (List.mem_of_mem_head? hd))).2.1⟩
  have hEnd : ∀ c, (v.map Lexeme.char).getLast? = some (.char c) → Text.isPadding c = false := by
    intro c hc
    rw [List.getLast?_map] at hc
    rcases Option.map_eq_some_iff.1 hc with ⟨d, hd, hSame⟩
    rcases Lexeme.char.inj hSame with rfl
    exact hLast d hd
  -- Nothing in the value has to be taken away or protected.
  have hSpells := Value.Spells.unquoted hNone hNone hWritten hUnits hFirst hEnd
    (Lexeme.denotes_map (fun _ => rfl) v)
  rw [List.append_nil] at hSpells
  exact hSpells

/-- A written value spells the value without the quotes that it begins and ends with. -/
theorem spells_value (v : Text) : Value.Spells (value v) (unwrap v) := by
  rcases value_cases v with hQuoted | ⟨hSame, hUnwrap, hSpecial, hHead, hLast⟩
  · rw [hQuoted]
    exact spells_quote (unwrap v)
  · rw [hSame, hUnwrap]
    exact spells_plain hSpecial hHead hLast

end Escape

/-! ## Canonical text -/

namespace Attribute

theorem denotes_keyword (a : Attribute) : AttributeType.Denotes a.keyword a.keyword := by
  have hKeyword : AttributeType.isKeyword a.keyword := by
    cases a <;> rfl
  have hUpper : Text.upper a.keyword = a.keyword := by
    cases a <;> rfl
  have hDenotes := AttributeType.denotes_of_isKeyword hKeyword
  rw [hUpper] at hDenotes
  exact hDenotes

end Attribute

namespace Name

/-- The fields of a name without the quotes that its values begin and end with. -/
def unwrapped (n : Name) : Name where
  commonName := n.commonName.map Escape.unwrap
  organisationUnit := n.organisationUnit.map Escape.unwrap
  organisation := Escape.unwrap n.organisation
  locality := Escape.unwrap n.locality
  state := n.state.map Escape.unwrap
  country := Escape.unwrap n.country

theorem get?_unwrapped (n : Name) (a : Attribute) :
    n.unwrapped.get? a = (n.get? a).map Escape.unwrap := by
  cases a <;> rfl

theorem attributes_unwrapped (n : Name) :
    n.unwrapped.attributes = n.attributes.map fun (a, v) => (a, Escape.unwrap v) := by
  rw [attributes, attributes, List.map_filterMap]
  apply List.filterMap_congr
  intro a _
  rw [get?_unwrapped, Option.map_map, Option.map_map]
  rfl

/-- Whether no value of a name begins and ends with a quote. -/
def IsPlain (n : Name) : Prop :=
  ∀ a v, n.get? a = some v → ¬ Escape.IsWrapped v

theorem isPlain_iff {n : Name} : n.IsPlain ↔ ∀ pair ∈ n.attributes, ¬ Escape.IsWrapped pair.2 := by
  constructor
  · intro h pair hPair
    exact h pair.1 pair.2 (mem_attributes_iff.1 hPair)
  · intro h a v hv
    exact h (a, v) (mem_attributes_iff.2 hv)

instance (n : Name) : Decidable n.IsPlain :=
  decidable_of_iff _ isPlain_iff.symm

theorem unwrapped_eq_self_iff {n : Name} : n.unwrapped = n ↔ n.IsPlain := by
  constructor
  · intro h a v hv
    have hGet := get?_unwrapped n a
    rw [h, hv] at hGet
    exact Escape.unwrap_eq_self_iff.1 (Option.some.inj hGet).symm
  · intro h
    apply ext_get?
    intro a
    rw [get?_unwrapped]
    cases hv : n.get? a with
    | none => rfl
    | some v => exact congrArg some (Escape.unwrap_of_not_isWrapped (h a v hv))

/-- One segment of a canonical text. -/
def segment (pair : Attribute × Text) : Text :=
  pair.1.keyword ++ '=' :: Escape.value pair.2

/-- The pair that a segment of a canonical text spells. -/
def rdn (pair : Attribute × Text) : Rdn :=
  ⟨pair.1.keyword, Escape.unwrap pair.2⟩

theorem spells_segment {lead : Text} (hLead : ∀ c ∈ lead, Unicode.isWhiteSpace c)
    (pair : Attribute × Text) : Rdn.Spells (lead ++ segment pair) (rdn pair) := by
  have hSpells := Rdn.Spells.intro (r := rdn pair) hLead (List.forall_mem_nil _)
    pair.1.denotes_keyword (Escape.spells_value pair.2)
  rw [List.append_nil, List.append_assoc] at hSpells
  exact hSpells

/-- The space behind a separator belongs to the next segment. -/
theorem lists_intercalate {lead : Text} (hLead : ∀ c ∈ lead, Unicode.isWhiteSpace c)
    {pairs : List (Attribute × Text)} (hNe : pairs ≠ []) :
    Rdn.Lists (lead ++ [',', ' '].intercalate (pairs.map segment)) (pairs.map rdn) := by
  induction pairs generalizing lead with
  | nil =>
      exact absurd rfl hNe
  | cons pair pairs ih =>
      cases pairs with
      | nil =>
          rw [List.map_singleton, List.map_singleton, List.intercalate_singleton]
          exact .last (spells_segment hLead pair)
      | cons pair' pairs =>
          -- The separator is the comma alone.
          have hSpace : ∀ c ∈ [' '], Unicode.isWhiteSpace c := List.forall_mem_singleton.2 rfl
          have hRest := ih hSpace (List.cons_ne_nil pair' pairs)
          have hLists := Rdn.Lists.cons (c := ',') (spells_segment hLead pair) rfl hRest
          simpa [List.intercalate_cons_cons] using hLists

theorem lists_canonical (n : Name) : Rdn.Lists n.canonical (n.attributes.map rdn) :=
  lists_intercalate (List.forall_mem_nil _) n.attributes_ne_nil

theorem resolves_canonical (n : Name) :
    Rdn.Resolves (n.attributes.map rdn) n.unwrapped.attributes := by
  rw [attributes_unwrapped, Rdn.Resolves, List.forall₂_map_left_iff, List.forall₂_map_right_iff,
    List.forall₂_same]
  intro pair _
  exact ⟨pair.1.ofToken?_keyword, rfl⟩

/-! ## Round trips -/

/-- A text that derives the present attributes of a name, in any order, denotes this name. -/
theorem parseWith_of_lists {s : Text} {n : Name} {rdns : List Rdn}
    {pairs : List (Attribute × Text)} (h : Rdn.Lists s rdns) (hResolves : Rdn.Resolves rdns pairs)
    (hPerm : pairs.Perm n.attributes) (rules : Rules) :
    parseWith s rules = n.withRules rules := by
  have hRdns : (Rdn.decompose s).mapError NameError.malformed = .ok rdns :=
    Result.mapError_eq_ok_iff.2 (Rdn.decompose_of_lists h)
  calc
    parseWith s rules = ofRdns rdns rules := Result.bind_of_ok hRdns
    _ = n.withRules rules := ofRdns_of_resolves hResolves hPerm rules

theorem parseWith_canonical_eq (n : Name) (rules : Rules) :
    parseWith n.canonical rules = n.unwrapped.withRules rules :=
  parseWith_of_lists n.lists_canonical n.resolves_canonical (List.Perm.refl _) rules

theorem parseWith_canonical_of_isPlain {n : Name} {rules : Rules} (hPlain : n.IsPlain)
    (h : n.withRules rules = .ok n) : parseWith n.canonical rules = .ok n := by
  calc
    parseWith n.canonical rules = n.unwrapped.withRules rules := parseWith_canonical_eq n rules
    _ = n.withRules rules := by rw [unwrapped_eq_self_iff.2 hPlain]
    _ = .ok n := h

/-- A canonical text is read as the name without the quotes that its values begin and end with;
names without such quotes come back as they are. -/
theorem parseWith_canonical (n : Name) (rules : Rules) :
    parseWith n.canonical rules = n.unwrapped.withRules rules ∧
      (n.withRules rules = .ok n → n.IsPlain → parseWith n.canonical rules = .ok n) := by
  refine ⟨parseWith_canonical_eq n rules, ?_⟩
  intro h hPlain
  exact parseWith_canonical_of_isPlain hPlain h

/-- Backslashes, lone quotes, separators, hashes and padding at both ends all come back. -/
theorem parseWith_canonical_specials :
    let rules : Rules := ⟨.iso, OrganisationPolicy.permissive⟩
    let n : Name := ⟨some ['\\', ' ', ' ', '#'], none, ['B', '"', ',', 'A'], ['"'],
      some ['\n', 'x', ' '], ['G', 'B']⟩
    n.withRules rules = .ok n ∧ n.IsPlain ∧ parseWith n.canonical rules = .ok n := by
  intro rules n
  have hValid : n.withRules rules = .ok n := rfl
  have hPlain : n.IsPlain := by decide
  exact ⟨hValid, hPlain, (parseWith_canonical n rules).2 hValid hPlain⟩

/-- A value that begins and ends with a quote is written as it is and loses its quotes. -/
theorem parse_canonical_ne_self :
    ¬ ∀ n : Name, n.withRules .standard = .ok n → parse n.canonical = .ok n := by
  intro h
  have hValid : (minimal "\"Bank\"".toList "Bonn".toList "DE".toList).withRules .standard =
      .ok (minimal "\"Bank\"".toList "Bonn".toList "DE".toList) := by
    decide +kernel
  have hParse := h _ hValid
  rw [parse, parseWith_canonical_eq] at hParse
  -- What comes back is an acceptable name too, but another one.
  have hStripped : (minimal "\"Bank\"".toList "Bonn".toList "DE".toList).unwrapped.withRules
      .standard = .ok (minimal "Bank".toList "Bonn".toList "DE".toList) := by
    decide +kernel
  rw [hStripped] at hParse
  revert hParse
  decide +kernel

/-- An accepted name comes back from its canonical text exactly if no value of it begins and ends
with a quote; its canonical text is then the same again. -/
theorem parse_canonical {n : Name} (h : n.withRules .standard = .ok n) :
    (parse n.canonical = .ok n ↔ n.IsPlain) ∧
      (n.IsPlain → (parse n.canonical).map canonical = .ok n.canonical) ∧
        (¬ n.IsPlain → parse n.canonical = n.unwrapped.withRules .standard) := by
  refine ⟨⟨?_, ?_⟩, ?_, ?_⟩
  -- A name that comes back is the one without quotes.
  · intro hParse
    rw [parse, parseWith_canonical_eq] at hParse
    rcases Result.map_eq_ok_iff.1 hParse with ⟨-, -, hSame⟩
    exact unwrapped_eq_self_iff.1 hSame
  · intro hPlain
    exact parseWith_canonical_of_isPlain hPlain h
  · intro hPlain
    rw [parse, parseWith_canonical_of_isPlain hPlain h]
    rfl
  · intro _
    exact parseWith_canonical_eq n .standard

theorem parse_canonical_comma :
    let n : Name := minimal "Bank, A".toList "Bonn".toList "DE".toList
    n.withRules .standard = .ok n ∧ parse n.canonical = .ok n := by
  intro n
  have hValid : n.withRules .standard = .ok n := by decide +kernel
  exact ⟨hValid, (parse_canonical hValid).1.2 (by decide +kernel)⟩

end Name
end MemberNames
