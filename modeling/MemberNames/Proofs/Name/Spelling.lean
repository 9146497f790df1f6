import MemberNames.Proofs.Name.Canonical

/-!
# All spellings of a name

A name is spelled in many ways: its attributes in any order, each type as keyword or identifier,
each value in one of three forms, and each character of a quoted or unquoted value in one of three
ways, independently of its neighbours. Every spelling of a valid name is read as this name, and
every name has a spelling.

* `Name.SpellsChar`, `Name.SpellsValue`: characters and values
* `Name.SpellsType`, `Name.SpellsPair`: types, and types with values
* `Name.Spells`: names
* `Name.lists_of_spellsPairs`: a spelling derives the pairs of the name in the order of the text
* `Name.parseWith_of_spells`: every spelling of a name is read as the name
-/

namespace MemberNames
namespace Name

/-! ## Spellings -/

/-- Whether a character may stand for itself between quotes. -/
def isQuotedVerbatim (c : Char) : Bool :=
  !(['"', '\\'].contains c)

/-- Whether a character may stand for itself outside quotes. -/
def isBareVerbatim (c : Char) : Bool :=
  !(['"', '\\', '<', '>', '+', ',', ';'].contains c)

/-- A character as itself, behind a backslash, or as the octets of its UTF-8 form, each of them a
backslash and two digits in either letter case. -/
inductive SpellsChar (isVerbatim : Char → Bool) : Text → Char → Prop where
  | verbatim {c : Char} :
      isVerbatim c → SpellsChar isVerbatim [c] c
  | escaped {c : Char} :
      Lexeme.isEscapable c → SpellsChar isVerbatim ['\\', c] c
  | octets {s : Text} {c : Char} :
      Text.lower s = (Utf8.encode [c]).flatMap (fun b => '\\' :: Hex.encodeOctet b) →
        SpellsChar isVerbatim s c

/-- A value between quotes, without quotes, or as the digits of a string element. Outside quotes
neither the first nor the last character may be padding that stands for itself, and the first one
may not be a hash that does. -/
inductive SpellsValue : Text → Text → Prop where
  | quoted {pieces : List Text} {v : Text} :
      List.Forall₂ (SpellsChar isQuotedVerbatim) pieces v →
        SpellsValue ('"' :: (pieces.flatten ++ ['"'])) v
  | bare {pieces : List Text} {v : Text} :
      List.Forall₂ (SpellsChar isBareVerbatim) pieces v →
        (∀ c, pieces.head? = some [c] → Text.isPadding c = false ∧ c ≠ '#') →
          (∀ c, pieces.getLast? = some [c] → Text.isPadding c = false) →
            SpellsValue pieces.flatten v
  | hex {digits v : Text} {tag : UInt8} :
      Value.IsStringTag tag →
        (Der.Element.toOctets ⟨tag, Utf8.encode v⟩).length ≤ Der.maxLength →
          Text.lower digits = Hex.encode (Der.Element.toOctets ⟨tag, Utf8.encode v⟩) →
            SpellsValue ('#' :: digits) v

/-- The keyword in any letter case, or the dotted identifier with or without a label in front. -/
inductive SpellsType : Text → Attribute → Prop where
  | keyword {token : Text} {a : Attribute} :
      Text.lower token = Text.lower a.keyword → SpellsType token a
  | dotted (a : Attribute) :
      SpellsType a.oid.toDotted a
  | labelled {label : Text} (a : Attribute) :
      Text.lower label = ['o', 'i', 'd', '.'] → SpellsType (label ++ a.oid.toDotted) a

/-- A type and a value, each with any amount of padding around it. -/
inductive SpellsPair : Text → Attribute × Text → Prop where
  | intro {p q r t token s v : Text} {a : Attribute} :
      Value.IsPadding p → Value.IsPadding q → Value.IsPadding r → Value.IsPadding t →
        SpellsType token a → SpellsValue s v →
          SpellsPair (p ++ token ++ q ++ '=' :: (r ++ (s ++ t))) (a, v)

/-- Pairs with a comma or a semicolon between each two. -/
inductive SpellsPairs : Text → List (Attribute × Text) → Prop where
  | last {s : Text} {pair : Attribute × Text} :
      SpellsPair s pair → SpellsPairs s [pair]
  | cons {c : Char} {s t : Text} {pair : Attribute × Text} {pairs : List (Attribute × Text)} :
      SpellsPair s pair → c = ',' ∨ c = ';' → SpellsPairs t pairs →
        SpellsPairs (s ++ c :: t) (pair :: pairs)

/-- The present attributes of a name, once each and in any order. -/
def Spells (s : Text) (n : Name) : Prop :=
  ∃ pairs, pairs.Perm n.attributes ∧ SpellsPairs s pairs

/-! ## Characters as lexemes -/

/-- How the lexemes of a value belong to the pieces that spell its characters. -/
structure Units (isVerbatim : Char → Bool) (pieces : List Text) (v : Text)
    (units : List Lexeme) : Prop where
  written : Lexeme.Written pieces.flatten units
  isUnit : ∀ l ∈ units, l.isUnit isVerbatim
  denotes : Lexeme.Denotes units v
  nil : units = [] ↔ pieces = []
  head : ∀ c, units.head? = some (.char c) → pieces.head? = some [c]
  last : ∀ c, units.getLast? = some (.char c) → pieces.getLast? = some [c]

theorem eq_backslash_of_toLower {c : Char} (h : c.toLower = '\\') : c = '\\' := by
  have hNat := Hex.toNat_toLower c
  rw [h] at hNat
  apply Char.toNat_inj.1
  split at hNat
  · have hCode : '\\'.toNat = 92 := rfl
    omega
  · exact hNat.symm

/-- Letter case does not matter in escapes. -/
theorem written_octets {s : Text} {bs : Octets}
    (h : Text.lower s = bs.flatMap fun b => '\\' :: Hex.encodeOctet b) :
    Lexeme.Written s (bs.map .octet) := by
  induction bs generalizing s with
  | nil =>
      have hNil : s = [] := List.map_eq_nil_iff.1 h
      rw [hNil]
      exact .nil
  | cons b bs ih =>
      rcases List.map_eq_cons_iff.1 h with ⟨escape, s, rfl, hEscape, h⟩
      rcases List.map_eq_cons_iff.1 h with ⟨high, s, rfl, hHigh, h⟩
      rcases List.map_eq_cons_iff.1 h with ⟨low, s, rfl, hLow, h⟩
      rw [eq_backslash_of_toLower hEscape]
      refine .octet (Hex.octet?_eq_some_iff.2 ?_) (ih h)
      rw [hHigh, hLow]
      rfl

/-- A character is a run of lexemes of its own, also between other runs of octets. -/
theorem exists_units_char {isVerbatim isVerbatim' : Char → Bool}
    (hVerbatim : ∀ c, isVerbatim c → c ≠ '\\' ∧ isVerbatim' c) {s : Text} {c : Char}
    (h : SpellsChar isVerbatim s c) :
    ∃ units, units ≠ [] ∧ Lexeme.Written s units ∧ (∀ l ∈ units, l.isUnit isVerbatim') ∧
      (∀ ls v, Lexeme.Denotes ls v → Lexeme.Denotes (units ++ ls) (c :: v)) ∧
        ∀ d, .char d ∈ units → s = [d] := by
  cases h with
  | verbatim hc =>
      rcases hVerbatim c hc with ⟨hEscape, hc'⟩
      refine ⟨[.char c], List.cons_ne_nil _ _, .char hEscape .nil, ?_, ?_, ?_⟩
      · simpa [Lexeme.isUnit] using hc'
      · intro ls v hDenotes
        exact .cons rfl hDenotes
      · intro d hd
        simpa [eq_comm] using hd
  | escaped hc =>
      refine ⟨[.escaped c], List.cons_ne_nil _ _, .escaped hc .nil, ?_, ?_, ?_⟩
      · simp [Lexeme.isUnit]
      · intro ls v hDenotes
        exact .cons rfl hDenotes
      · intro d hd
        simp at hd
  | octets hs =>
      refine ⟨(Utf8.encode [c]).map .octet, ?_, written_octets hs, ?_, ?_, ?_⟩
      · intro hNil
        exact List.cons_ne_nil c [] (Utf8.encode_injective (List.map_eq_nil_iff.1 hNil))
      · simp [Lexeme.isUnit]
      · intro ls v hDenotes
        exact .octets [c] hDenotes
      · intro d hd
        simp at hd

theorem exists_units {isVerbatim isVerbatim' : Char → Bool}
    (hVerbatim : ∀ c, isVerbatim c → c ≠ '\\' ∧ isVerbatim' c) {pieces : List Text} {v : Text}
    (h : List.Forall₂ (SpellsChar isVerbatim) pieces v) :
    ∃ units, Units isVerbatim' pieces v units := by
  induction h with
  | nil =>
      exact ⟨[], .nil, by simp, .nil, by simp, by simp, by simp⟩
  | @cons s c pieces v hChar _ ih =>
      rcases exists_units_char hVerbatim hChar with
        ⟨front, hNe, hWritten, hUnit, hDenotes, hChars⟩
      rcases ih with ⟨units, hUnits⟩
      refine ⟨front ++ units, hWritten.append hUnits.written, ?_,
        hDenotes units v hUnits.denotes, by simp [hNe], ?_, ?_⟩
      · exact List.forall_mem_append.2 ⟨hUnit, hUnits.isUnit⟩
      · intro d hd
        rw [List.head?_append_of_ne_nil _ hNe] at hd
        simp [hChars d (List.mem_of_mem_head? hd)]
      · intro d hd
        by_cases hEmpty : units = []
        · rw [hEmpty, List.append_nil] at hd
          simp [hUnits.nil.1 hEmpty, hChars d (List.mem_of_getLast? hd)]
        · rw [List.getLast?_append_of_ne_nil _ hEmpty] at hd
          have hLast := hUnits.last d hd
          simp [List.getLast?_cons, hLast]

/-! ## Values and types -/

theorem spells_of_spellsValue {s v : Text} (h : SpellsValue s v) {lead trail : Text}
    (hLead : Value.IsPadding lead) (hTrail : Value.IsPadding trail) :
    Value.Spells (lead ++ (s ++ trail)) v := by
  cases h with
  | quoted hChars =>
      have hQuoted : ∀ c, isQuotedVerbatim c → c ≠ '\\' ∧ Value.isQuotable c := by
        intro c hc
        simp [isQuotedVerbatim] at hc
        simp [Value.isQuotable, hc]
      rcases exists_units hQuoted hChars with ⟨units, hUnits⟩
      simpa using Value.Spells.quoted hLead hTrail hUnits.written hUnits.isUnit hUnits.denotes
  | bare hChars hFirst hLast =>
      have hBare : ∀ c, isBareVerbatim c → c ≠ '\\' ∧ Value.isBare c := by
        intro c hc
        simp [isBareVerbatim] at hc
        simp [Value.isBare, Value.isReserved, hc]
      rcases exists_units hBare hChars with ⟨units, hUnits⟩
      exact .unquoted hLead hTrail hUnits.written hUnits.isUnit
        (fun c hc => hFirst c (hUnits.head c hc)) (fun c hc => hLast c (hUnits.last c hc))
        hUnits.denotes
  | hex hTag hShort hDigits =>
      exact .hex hLead hTrail hTag hShort hDigits

theorem exists_denotes_of_spellsType {token : Text} {a : Attribute} (h : SpellsType token a) :
    ∃ t, AttributeType.Denotes token t ∧ Attribute.ofToken? t = some a := by
  have hDotted : AttributeType.IsDottedDigits a.oid.toDotted :=
    (ObjectId.spellsArcs_toDotted (List.cons_ne_nil _ _)).isDottedDigits
  cases h with
  | keyword hLower => exact ⟨a.keyword, Attribute.denotes_of_lower_eq hLower, a.ofToken?_keyword⟩
  | dotted => exact ⟨_, .dotted hDotted, a.ofToken?_toDotted⟩
  | labelled _ hLabel => exact ⟨_, .labelled hLabel hDotted, a.ofToken?_toDotted⟩

/-! ## Pairs -/

theorem exists_spells_of_spellsPair {s : Text} {pair : Attribute × Text} (h : SpellsPair s pair) :
    ∃ r : Rdn, Rdn.Spells s r ∧ Attribute.ofToken? r.attributeType = some pair.1 ∧
      r.value = pair.2 := by
  cases h with
  | intro hp hq hr ht hType hValue =>
      rcases exists_denotes_of_spellsType hType with ⟨t, hDenotes, hToken⟩
      exact ⟨⟨t, _⟩, .intro hp.isWhiteSpace hq.isWhiteSpace hDenotes
        (spells_of_spellsValue hValue hr ht), hToken, rfl⟩

/-- A spelling derives the pairs that it spells. -/
theorem lists_of_spellsPairs {s : Text} {pairs : List (Attribute × Text)}
    (h : SpellsPairs s pairs) : ∃ rdns, Rdn.Lists s rdns ∧ Rdn.Resolves rdns pairs := by
  induction h with
  | last hPair =>
      rcases exists_spells_of_spellsPair hPair with ⟨r, hSpells, hResolves⟩
      exact ⟨[r], .last hSpells, .cons hResolves .nil⟩
  | cons hPair hc _ ih =>
      rcases exists_spells_of_spellsPair hPair with ⟨r, hSpells, hResolves⟩
      rcases ih with ⟨rdns, hLists, hRest⟩
      exact ⟨r :: rdns, .cons hSpells (by simpa [Segment.isSeparator] using hc) hLists,
        .cons hResolves hRest⟩

/-! ## Names -/

/-- Every value has a spelling between quotes. -/
theorem spellsValue_quoted (v : Text) :
    SpellsValue ('"' :: ((v.map Escape.character).flatten ++ ['"'])) v := by
  refine .quoted ?_
  rw [List.forall₂_map_left_iff, List.forall₂_same]
  intro c _
  rw [Escape.character]
  split
  · rename_i hMark
    have hCases : c = '"' ∨ c = '\\' := by simpa using hMark
    rcases hCases with rfl | rfl
    · exact .escaped rfl
    · exact .escaped rfl
  · rename_i hMark
    exact .verbatim (by simpa [isQuotedVerbatim] using hMark)

theorem exists_spellsPairs {pairs : List (Attribute × Text)} (hNe : pairs ≠ []) :
    ∃ s, SpellsPairs s pairs := by
  have hNone : Value.IsPadding [] := List.forall_mem_nil _
  induction pairs with
  | nil =>
      exact absurd rfl hNe
  | cons pair pairs ih =>
      have hPair := SpellsPair.intro hNone hNone hNone hNone (.dotted pair.1)
        (spellsValue_quoted pair.2)
      cases pairs with
      | nil =>
          exact ⟨_, .last hPair⟩
      | cons pair' pairs =>
          rcases ih (List.cons_ne_nil pair' pairs) with ⟨s, hs⟩
          exact ⟨_, .cons hPair (.inl rfl) hs⟩

theorem exists_spells (n : Name) : ∃ s, Spells s n := by
  rcases exists_spellsPairs n.attributes_ne_nil with ⟨s, hs⟩
  exact ⟨s, _, List.Perm.refl _, hs⟩

theorem parseWith_eq_withRules {s : Text} {n : Name} (h : Spells s n) (rules : Rules) :
    parseWith s rules = n.withRules rules := by
  rcases h with ⟨pairs, hPerm, hPairs⟩
  rcases lists_of_spellsPairs hPairs with ⟨rdns, hLists, hResolves⟩
  exact parseWith_of_lists hLists hResolves hPerm rules

/-- A valid name has spellings, and every one of them is read as the name. -/
theorem parseWith_of_spells {n : Name} {rules : Rules} (h : n.withRules rules = .ok n) :
    (∃ s, Spells s n) ∧ ∀ s, Spells s n → parseWith s rules = .ok n := by
  refine ⟨exists_spells n, ?_⟩
  intro s hs
  calc
    parseWith s rules = n.withRules rules := parseWith_eq_withRules hs rules
    _ = .ok n := h

/-- Both separators, three forms of types, a value between quotes and one that needs none, and
escapes in both letter cases. -/
theorem parseWith_of_spells_reordered :
    let n : Name := minimal "éA".toList "B".toList "DE".toList
    let s : Text := "c=DE;2.5.4.7=\\42 ,oiD.2.5.4.10=\"\\C3\\a9A\"".toList
    n.withRules .standard = .ok n ∧ Spells s n ∧ parseWith s .standard = .ok n := by
  intro n s
  have hNone : Value.IsPadding [] := List.forall_mem_nil _
  have hSpace : Value.IsPadding [' '] := List.forall_mem_singleton.2 rfl
  have hCode : SpellsValue ['D', 'E'] ['D', 'E'] := by
    have hChars : List.Forall₂ (SpellsChar isBareVerbatim) [['D'], ['E']] ['D', 'E'] :=
      .cons (.verbatim rfl) (.cons (.verbatim rfl) .nil)
    exact .bare hChars (by simp; decide) (by simp; decide)
  have hTown : SpellsValue ['\\', '4', '2'] ['B'] := by
    have hChars : List.Forall₂ (SpellsChar isBareVerbatim) [['\\', '4', '2']] ['B'] :=
      .cons (.octets rfl) .nil
    exact .bare hChars (by simp) (by simp)
  have hFirm : SpellsValue ['"', '\\', 'C', '3', '\\', 'a', '9', 'A', '"'] ['é', 'A'] := by
    have hChars : List.Forall₂ (SpellsChar isQuotedVerbatim)
        [['\\', 'C', '3', '\\', 'a', '9'], ['A']] ['é', 'A'] :=
      .cons (.octets rfl) (.cons (.verbatim rfl) .nil)
    exact .quoted hChars
  have hKeyword : SpellsType ['c'] .country := .keyword rfl
  have hLabel : SpellsType (['o', 'i', 'D', '.'] ++ Attribute.organisation.oid.toDotted)
      .organisation := .labelled .organisation rfl
  have hCountry := SpellsPair.intro hNone hNone hNone hNone hKeyword hCode
  have hLocality := SpellsPair.intro hNone hNone hNone hSpace (.dotted .locality) hTown
  have hOrganisation := SpellsPair.intro hNone hNone hNone hNone hLabel hFirm
  have hSpells : Spells s n :=
    ⟨_, by decide, .cons hCountry (.inr rfl) (.cons hLocality (.inl rfl) (.last hOrganisation))⟩
  have hValid : n.withRules .standard = .ok n := rfl
  exact ⟨hValid, hSpells, (parseWith_of_spells hValid).2 s hSpells⟩

end Name
end MemberNames
