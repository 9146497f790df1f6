import MemberNames.Proofs.Name.Refusal
import MemberNames.Proofs.Rdn.Quotation

/-!
# Newlines in messages and canonical texts

The texts that tell what became of a name hold no newline of their own. A message holds one exactly
if it quotes one, and a canonical text exactly if one of its values holds one.

* `NameError.quoted`, `NameError.newline_mem_message_iff`: messages
* `Name.newline_mem_canonical_iff`: canonical texts
* `Name.parseWith_cases`: what a text leads to
* `Name.mem_of_parseWith`, `Name.mem_country_of_parseWith`: where a newline in a value comes from
* `Name.newline_mem_message_of_parseWith_iff`: messages about a line
-/

namespace MemberNames

/-! ## Numerals -/

open AttributeType (isTokenChar)

theorem newline_not_mem_of_isTokenChar {s : Text} (h : ∀ c ∈ s, isTokenChar c) : '\n' ∉ s :=
  fun hMem => absurd (h '\n' hMem) (by decide)

theorem isTokenChar_digitChar {n : Nat} (h : n < 16) : isTokenChar (Nat.digitChar n) := by
  have hAll : ∀ m : Fin 16, isTokenChar (Nat.digitChar m) := by decide
  exact hAll ⟨n, h⟩

theorem isTokenChar_of_mem_toDigits {base : Nat} (hLeast : 1 < base) (hMost : base ≤ 16) {n : Nat}
    {c : Char} (hc : c ∈ Nat.toDigits base n) : isTokenChar c := by
  induction n using Nat.strongRecOn with
  | ind n ih =>
      rw [Nat.toDigits_eq_if hLeast] at hc
      split at hc
      · rcases List.mem_singleton.1 hc with rfl
        exact isTokenChar_digitChar (by omega)
      · rename_i hBase
        have hSmaller : n / base < n := Nat.div_lt_self (by omega) hLeast
        have hLast : n % base < base := Nat.mod_lt n (by omega)
        rcases List.mem_append.1 hc with hFront | hBack
        · exact ih _ hSmaller hFront
        · rcases List.mem_singleton.1 hBack with rfl
          exact isTokenChar_digitChar (by omega)

theorem Text.newline_not_mem_decimal (n : Nat) : '\n' ∉ decimal n :=
  newline_not_mem_of_isTokenChar fun _ hc => isTokenChar_of_mem_toDigits (by decide) (by decide) hc

theorem Hex.newline_not_mem_encodeOctet (b : UInt8) : '\n' ∉ encodeOctet b := by
  have hByte : b.toNat < 256 := b.toNat_lt
  refine newline_not_mem_of_isTokenChar
    (List.forall_mem_cons.2 ⟨?_, List.forall_mem_singleton.2 ?_⟩)
  · exact isTokenChar_digitChar (by omega)
  · exact isTokenChar_digitChar (by omega)

/-! ## Frames -/

/-- What stands around a quoted text holds no newline. -/
theorem newline_mem_frame_iff {before after : Text} (hBefore : '\n' ∉ before)
    (hAfter : '\n' ∉ after) (s : Text) : '\n' ∈ before ++ s ++ after ↔ '\n' ∈ s := by
  simp only [List.mem_append, hBefore, hAfter, false_or, or_false]

theorem newline_mem_append_iff {before : Text} (hBefore : '\n' ∉ before) (s : Text) :
    '\n' ∈ before ++ s ↔ '\n' ∈ s := by
  simp only [List.mem_append, hBefore, false_or]

/-! ## Messages about encodings -/

namespace Der

theorem newline_not_mem_message (e : Error) : '\n' ∉ e.message := by
  cases e with
  | unknownTag octet | unexpectedTag octet =>
      exact List.not_mem_append (by decide) (Hex.newline_not_mem_encodeOctet octet)
  | truncated | invalidLength | tooLong | trailingOctets | invalidObjectId | invalidAttribute
  | duplicateElement =>
      decide

theorem Tag.newline_not_mem_name (octet : UInt8) : '\n' ∉ name octet := by
  have hUniversal : ∀ named ∈ universalNames, '\n' ∉ named.2.toList := by decide
  have hClass : '\n' ∉ (className octet).toList := by
    rw [className]
    split
    · decide
    · split
      · decide
      · decide
  have hForm : ∀ p : Prop, [Decidable p] →
      '\n' ∉ (if p then "constructed" else "primitive").toList := by
    intro p hp
    split
    · decide
    · decide
  rw [name]
  split
  · rename_i named hNamed
    rcases List.lookup_eq_some_iff.1 hNamed with ⟨before, after, hSplit, -⟩
    have hMem : (octet, named) ∈ universalNames := by
      rw [hSplit]
      exact List.mem_append_right _ List.mem_cons_self
    exact hUniversal _ hMem
  · refine List.not_mem_append (List.not_mem_append (List.not_mem_append (List.not_mem_append
      (List.not_mem_append hClass (by decide)) ?_) (by decide)) (hForm _)) (by decide)
    exact Text.newline_not_mem_decimal _

end Der

/-! ## Messages about organisations -/

/-- A newline is shown by its escape. -/
theorem Quoted.newline_not_mem_inside (quote c : Char) : '\n' ∉ inside quote c := by
  rw [inside]
  split
  · decide
  split
  · decide
  split
  · decide
  · rename_i hNewline
    have hChar : '\n' ≠ c := Ne.symm hNewline
    split
    · decide
    split
    · simp [hChar]
    split
    · refine List.not_mem_append (List.not_mem_append (by decide) ?_) (by decide)
      exact newline_not_mem_of_isTokenChar fun _ hc =>
        isTokenChar_of_mem_toDigits (by decide) (by decide) hc
    · simp [hChar]

theorem Quoted.newline_not_mem_character (c : Char) : '\n' ∉ character c := by
  have hOpen : '\n' ∉ '\'' :: inside '\'' c := List.not_mem_cons_of_ne_of_not_mem (by decide)
    (newline_not_mem_inside '\'' c)
  exact List.not_mem_append hOpen (by decide)

namespace OrganisationError

theorem newline_not_mem_codePoint (c : Char) : '\n' ∉ codePoint c := by
  refine newline_not_mem_of_isTokenChar (List.forall_mem_append.2 ⟨?_, ?_⟩)
  · intro d hd
    rw [List.eq_of_mem_replicate hd]
    rfl
  · intro d hd
    rcases List.mem_map.1 hd with ⟨digit, hDigit, rfl⟩
    exact AttributeType.isTokenChar_toUpper
      (isTokenChar_of_mem_toDigits (by decide) (by decide) hDigit)

/-- The text of an error that is not the library's own. -/
def quoted : OrganisationError → Text
  | .other reason => reason
  | _ => []

theorem newline_mem_message_iff (e : OrganisationError) : '\n' ∈ e.message ↔ '\n' ∈ e.quoted := by
  cases e with
  | controlCharacter c =>
      exact (newline_mem_frame_iff (by decide) (by decide) (codePoint c)).trans
        (iff_of_false (newline_not_mem_codePoint c) List.not_mem_nil)
  | nonLatinLetter c =>
      exact (newline_mem_frame_iff (by decide) (by decide) (Quoted.character c)).trans
        (iff_of_false (Quoted.newline_not_mem_character c) List.not_mem_nil)
  | other reason =>
      exact Iff.rfl
  | tooFewLetters | surroundingWhiteSpace | doubleSpacing =>
      decide

end OrganisationError

/-- The policy for legal names has no words of its own. -/
theorem OrganisationPolicy.legalName_ne_other (v reason : Text) :
    legalName v ≠ .error (.other reason) := by
  intro h
  rw [legalName] at h
  split at h
  · cases h
  split at h
  · cases h
  split at h
  · cases h
  split at h
  · cases h
  split at h
  · cases h
  · cases h

/-! ## Messages about names -/

theorem Attribute.newline_not_mem_keyword (a : Attribute) : '\n' ∉ a.keyword := by
  cases a <;> decide

theorem Defect.newline_mem_message_iff (d : Defect) : '\n' ∈ d.message ↔ '\n' ∈ d.quoted := by
  cases d with
  | unescapedOutsideQuotes c | unescapedInValue c =>
      exact newline_mem_frame_iff (by decide) (by decide) [c]
  | invalidEscape c =>
      exact newline_mem_append_iff (by decide) [c]
  | noSeparator text | invalidType text | invalidHexValue text =>
      exact newline_mem_frame_iff (by decide) (by decide) text
  | invalidElement e =>
      exact (newline_mem_append_iff (by decide) e.message).trans
        (iff_of_false (Der.newline_not_mem_message e) List.not_mem_nil)
  | unsupportedValueType tag =>
      exact (newline_mem_append_iff (by decide) (Der.Tag.name tag)).trans
        (iff_of_false (Der.Tag.newline_not_mem_name tag) List.not_mem_nil)
  | multiValued | danglingEscape | unbalancedQuotes | emptyRdn | emptyType | strayQuote
  | unterminatedQuotes | textAfterQuotes | danglingValueEscape | incompleteHexEscape
  | escapesNotUtf8 | hexConversion | valueNotUtf8 =>
      decide

namespace NameError

/-- The text in a message that is not the library's own. -/
def quoted : NameError → Text
  | .malformed d => d.quoted
  | .unsupportedAttribute token => token
  | .invalidOrganisation e => e.quoted
  | .invalidCountryCode code => code
  | _ => []

theorem newline_mem_message_iff (e : NameError) : '\n' ∈ e.message ↔ '\n' ∈ e.quoted := by
  cases e with
  | malformed d =>
      exact (newline_mem_append_iff (by decide) d.message).trans d.newline_mem_message_iff
  | missingAttribute a | duplicateAttribute a =>
      exact (newline_mem_append_iff (by decide) a.keyword).trans
        (iff_of_false a.newline_not_mem_keyword List.not_mem_nil)
  | unsupportedAttribute token =>
      exact newline_mem_frame_iff (by decide) (by decide) token
  | tooLong a bound =>
      have hFront : '\n' ∉ "attribute ".toList ++ a.keyword ++ " must contain fewer than ".toList :=
        List.not_mem_append (List.not_mem_append (by decide) a.newline_not_mem_keyword) (by decide)
      exact (newline_mem_frame_iff hFront (by decide) (Text.decimal bound)).trans
        (iff_of_false (Text.newline_not_mem_decimal bound) List.not_mem_nil)
  | blankAttribute a =>
      exact (newline_mem_frame_iff (by decide) (by decide) a.keyword).trans
        (iff_of_false a.newline_not_mem_keyword List.not_mem_nil)
  | invalidOrganisation e =>
      exact (newline_mem_append_iff (by decide) e.message).trans e.newline_mem_message_iff
  | invalidCountryCode code =>
      exact newline_mem_frame_iff (by decide) (by decide) code
  | encoding e =>
      exact (newline_mem_append_iff (by decide) e.message).trans
        (iff_of_false (Der.newline_not_mem_message e) List.not_mem_nil)

end NameError

/-! ## Canonical texts -/

namespace Escape

theorem newline_mem_quote_iff (s : Text) : '\n' ∈ quote s ↔ '\n' ∈ s := by
  simp [quote]

theorem newline_mem_flatMap_character_iff (s : Text) :
    '\n' ∈ s.flatMap character ↔ '\n' ∈ s := by
  have hCharacter : ∀ c, '\n' ∈ character c ↔ c = '\n' := by
    intro c
    rw [character]
    split
    · simp [eq_comm]
    · simp [eq_comm]
  simp only [List.mem_flatMap, hCharacter, exists_eq_right]

theorem newline_mem_unwrap_iff (v : Text) : '\n' ∈ unwrap v ↔ '\n' ∈ v := by
  by_cases hWrapped : IsWrapped v
  · rcases isWrapped_iff.1 hWrapped with ⟨inner, rfl⟩
    rw [unwrap_quote, newline_mem_quote_iff]
  · rw [unwrap_of_not_isWrapped hWrapped]

/-- Writing a value neither adds nor removes newlines. -/
theorem newline_mem_value_iff (v : Text) : '\n' ∈ value v ↔ '\n' ∈ v := by
  rcases value_cases v with hQuoted | ⟨hSame, -⟩
  · rw [hQuoted, newline_mem_quote_iff, newline_mem_flatMap_character_iff, newline_mem_unwrap_iff]
  · rw [hSame]

end Escape

theorem Rdn.Resolves.exists_value {rdns : List Rdn} {pairs : List (Attribute × Text)}
    (h : Resolves rdns pairs) {pair : Attribute × Text} (hPair : pair ∈ pairs) :
    ∃ r ∈ rdns, r.value = pair.2 := by
  induction h with
  | nil =>
      cases hPair
  | cons hr _ ih =>
      rcases List.mem_cons.1 hPair with rfl | hMem
      · exact ⟨_, List.mem_cons_self, hr.2⟩
      · rcases ih hMem with ⟨r, hr', hValue⟩
        exact ⟨r, List.mem_cons_of_mem _ hr', hValue⟩

namespace Name

theorem newline_mem_segment_iff (a : Attribute) (v : Text) :
    '\n' ∈ a.keyword ++ '=' :: Escape.value v ↔ '\n' ∈ v := by
  rw [newline_mem_append_iff a.newline_not_mem_keyword, List.mem_cons, Escape.newline_mem_value_iff]
  exact or_iff_right (by decide : '\n' ≠ '=')

theorem newline_mem_canonical_iff (n : Name) :
    '\n' ∈ n.canonical ↔ ∃ a v, n.get? a = some v ∧ '\n' ∈ v := by
  have hGap : '\n' ∉ [',', ' '] := by decide
  rw [canonical, Text.mem_intercalate_iff hGap]
  constructor
  · rintro ⟨segment, hSegment, hMem⟩
    rcases List.mem_map.1 hSegment with ⟨⟨a, v⟩, hPair, rfl⟩
    exact ⟨a, v, mem_attributes_iff.1 hPair, (newline_mem_segment_iff a v).1 hMem⟩
  · rintro ⟨a, v, hv, hMem⟩
    exact ⟨_, List.mem_map_of_mem (mem_attributes_iff.2 hv), (newline_mem_segment_iff a v).2 hMem⟩

/-! ## Names and errors that a text leads to -/

variable {rules : Rules} {s : Text}

/-- A text is malformed, or the types of its pairs do not make up a name, or its fields are
validated. Only an escape or a hexadecimal value brings a character into a field that the text does
not hold. -/
theorem parseWith_cases (s : Text) (rules : Rules) :
    (∃ d, Rdn.decompose s = .error d ∧ parseWith s rules = .error (.malformed d)) ∨
      (∃ token, (∀ c ∈ token, isTokenChar c) ∧
        parseWith s rules = .error (.unsupportedAttribute token)) ∨
      (∃ a, parseWith s rules = .error (.duplicateAttribute a) ∨
        parseWith s rules = .error (.missingAttribute a)) ∨
      ∃ fields : Name, parseWith s rules = fields.withRules rules ∧
        ∀ a v, fields.get? a = some v → ∀ c ∈ v, c ∈ s ∨ '\\' ∈ s ∨ '#' ∈ s := by
  cases hRead : Rdn.decompose s with
  | error d =>
      exact .inl ⟨d, rfl, parseWith_eq_malformed_iff.2 hRead⟩
  | ok rdns =>
      refine .inr ?_
      have hLeads : Rdn.LeadsTo rules rdns (parseWith s rules) := (parseWith_eq_iff hRead).1 rfl
      generalize parseWith s rules = result at hLeads
      cases hLeads with
      | @unsupported before after r pairs hSplit _ _ =>
          have hMem : r ∈ rdns := by
            rw [hSplit]
            exact List.mem_append_right _ List.mem_cons_self
          exact .inl ⟨_, fun c hc => Rdn.isTokenChar_of_decompose hRead hMem hc, rfl⟩
      | duplicate _ _ _ _ =>
          exact .inr (.inl ⟨_, .inl rfl⟩)
      | missing _ _ _ _ =>
          exact .inr (.inl ⟨_, .inr rfl⟩)
      | validated hAssigns hPairs =>
          refine .inr (.inr ⟨_, rfl, fun a v hv c hc => ?_⟩)
          rcases hAssigns.resolves.exists_value ((hPairs a v).1 hv) with ⟨r, hr, rfl⟩
          exact Rdn.mem_of_decompose hRead hr hc

/-- Whether an error is found before the fields of a name are complete. -/
def IsBeforeFields : NameError → Prop
  | .malformed _ | .unsupportedAttribute _ | .duplicateAttribute _ | .missingAttribute _ => True
  | _ => False

theorem exists_fields_of_parseWith {result : Except NameError Name} (h : parseWith s rules = result)
    (hLate : ∀ e, result = .error e → ¬ IsBeforeFields e) :
    ∃ fields : Name, fields.withRules rules = result ∧
      ∀ a v, fields.get? a = some v → ∀ c ∈ v, c ∈ s ∨ '\\' ∈ s ∨ '#' ∈ s := by
  subst h
  rcases parseWith_cases s rules with ⟨d, -, hError⟩ | ⟨token, -, hError⟩ |
    ⟨a, hError | hError⟩ | ⟨fields, hFields, hMem⟩
  · exact absurd trivial (hLate _ hError)
  · exact absurd trivial (hLate _ hError)
  · exact absurd trivial (hLate _ hError)
  · exact absurd trivial (hLate _ hError)
  · exact ⟨fields, hFields.symm, hMem⟩

theorem mem_of_parseWith {n : Name} (h : parseWith s rules = .ok n) {a : Attribute} {v : Text}
    (hv : n.get? a = some v) {c : Char} (hc : c ∈ v) : c ∈ s ∨ '\\' ∈ s ∨ '#' ∈ s := by
  rcases exists_fields_of_parseWith h (by rintro e ⟨⟩) with ⟨fields, hFields, hMem⟩
  rcases withRules_eq_ok_iff.1 hFields with ⟨rfl, -⟩
  exact hMem a v hv c hc

theorem mem_country_of_parseWith {code : Text}
    (h : parseWith s rules = .error (.invalidCountryCode code)) {c : Char} (hc : c ∈ code) :
    c ∈ s ∨ '\\' ∈ s ∨ '#' ∈ s := by
  rcases exists_fields_of_parseWith h (by rintro e ⟨⟩; exact id) with ⟨fields, hFields, hMem⟩
  rcases withRules_eq_error_iff.1 hFields with ⟨_, _, _, _, _, hFails⟩
  cases hFails with
  | country _ => exact hMem .country _ rfl c hc

/-- What a policy says about an organisation is what is reported. -/
theorem exists_policy_of_parseWith {e : OrganisationError}
    (h : parseWith s rules = .error (.invalidOrganisation e)) :
    ∃ v, rules.organisationPolicy v = .error e := by
  rcases exists_fields_of_parseWith h (by rintro e ⟨⟩; exact id) with ⟨fields, hFields, -⟩
  rcases withRules_eq_error_iff.1 hFields with ⟨_, _, _, _, _, hFails⟩
  cases hFails with
  | policy hPolicy => exact ⟨_, hPolicy⟩

/-- The message about a line holds a newline exactly if it quotes a country code with one, or if it
is a policy's own text and holds one. -/
theorem newline_mem_message_of_parseWith_iff {e : NameError} (h : parseWith s rules = .error e)
    (hLine : '\n' ∉ s) :
    '\n' ∈ e.message ↔
      (∃ code, e = .invalidCountryCode code ∧ '\n' ∈ code) ∨
        ∃ reason, e = .invalidOrganisation (.other reason) ∧ '\n' ∈ reason := by
  rw [e.newline_mem_message_iff]
  cases e with
  | malformed d =>
      have hQuoted : '\n' ∉ d.quoted := fun hMem =>
        hLine (Rdn.mem_of_decompose_eq_error (parseWith_eq_malformed_iff.1 h) hMem)
      simp [NameError.quoted, hQuoted]
  | unsupportedAttribute token =>
      -- A token is of letters, digits, hyphens and dots.
      have hToken : '\n' ∉ token := by
        rcases parseWith_cases s rules with ⟨_, -, hError⟩ | ⟨_, hToken, hError⟩ |
          ⟨_, hError | hError⟩ | ⟨_, hError, -⟩
        · cases h.symm.trans hError
        · cases h.symm.trans hError
          exact newline_not_mem_of_isTokenChar hToken
        · cases h.symm.trans hError
        · cases h.symm.trans hError
        · rcases withRules_eq_error_iff.1 (hError.symm.trans h) with ⟨_, _, _, _, _, hFails⟩
          cases hFails
      simp [NameError.quoted, hToken]
  | invalidOrganisation e =>
      cases e <;> simp [NameError.quoted, OrganisationError.quoted]
  | missingAttribute _ | duplicateAttribute _ | tooLong _ _ | blankAttribute _
  | invalidCountryCode _ | encoding _ =>
      simp [NameError.quoted]

end Name
end MemberNames
