import MemberNames.Proofs.Der.Element
import MemberNames.Proofs.Rdn.Value
import MemberNames.Proofs.Text.Basic

/-!
# How values are spelled

The texts that spell a value, without a word about how they are read: a value is quoted,
hexadecimal or unquoted, with padding around it that does not count. Reading finds exactly the
spelled value.

* `Value.Spells`: the three ways to spell a value
* `Value.readQuoted_list_eq_ok_iff`, `Value.readHex_eq_ok_iff`,
  `Value.readUnquoted_list_eq_ok_iff`: reading each of them
* `Value.read_eq_ok_iff`: reading a value
-/

namespace MemberNames
namespace Value

/-- Whether an element of a hexadecimal value may have the tag. -/
def IsStringTag (tag : UInt8) : Prop :=
  tag = Der.Tag.utf8String ∨ tag = Der.Tag.printableString ∨ tag = Der.Tag.ia5String

def IsPadding (s : Text) : Prop :=
  ∀ c ∈ s, Text.isPadding c

/-- The text behind an equals sign and the value that it spells. -/
inductive Spells : Text → Text → Prop where
  | quoted {lead s trail v : Text} {units : List Lexeme} :
      IsPadding lead → IsPadding trail → Lexeme.Written s units →
        (∀ l ∈ units, l.isUnit isQuotable) → Lexeme.Denotes units v →
          Spells (lead ++ '"' :: (s ++ '"' :: trail)) v
  | hex {lead digits trail v : Text} {tag : UInt8} :
      IsPadding lead → IsPadding trail → IsStringTag tag →
        (Der.Element.toOctets ⟨tag, Utf8.encode v⟩).length ≤ Der.maxLength →
          Text.lower digits = Hex.encode (Der.Element.toOctets ⟨tag, Utf8.encode v⟩) →
            Spells (lead ++ '#' :: (digits ++ trail)) v
  /-- The padding in front and behind is not the value's unless a backslash protects it. -/
  | unquoted {lead s trail v : Text} {units : List Lexeme} :
      IsPadding lead → IsPadding trail → Lexeme.Written s units →
        (∀ l ∈ units, l.isUnit isBare) →
          (∀ c, units.head? = some (.char c) → Text.isPadding c = false ∧ c ≠ '#') →
            (∀ c, units.getLast? = some (.char c) → Text.isPadding c = false) →
              Lexeme.Denotes units v → Spells (lead ++ (s ++ trail)) v

end Value

/-! ## Padding -/

namespace Lexeme

theorem written_map_char {s : Text} (h : ∀ c ∈ s, c ≠ '\\') : Written s (s.map .char) := by
  induction s with
  | nil =>
      exact .nil
  | cons c s ih =>
      rcases List.forall_mem_cons.1 h with ⟨hc, hs⟩
      exact .char hc (ih hs)

theorem written_of_isPadding {s : Text} (h : Value.IsPadding s) : Written s (s.map .char) := by
  apply written_map_char
  intro c hc
  rintro rfl
  cases h _ hc

theorem all_isPaddingLexeme {s : Text} (h : Value.IsPadding s) :
    ∀ l ∈ s.map Lexeme.char, Value.isPaddingLexeme l := by
  intro l hl
  rcases List.mem_map.1 hl with ⟨c, hc, rfl⟩
  exact h c hc

theorem isPadding_of_written {s : Text} {ls : List Lexeme} (hs : Written s ls)
    (h : ∀ l ∈ ls, Value.isPaddingLexeme l) : Value.IsPadding s := by
  induction hs with
  | nil =>
      intro c hc
      cases hc
  | char _ _ ih =>
      rcases List.forall_mem_cons.1 h with ⟨hc, hTail⟩
      exact List.forall_mem_cons.2 ⟨hc, ih hTail⟩
  | escaped _ _ _ =>
      cases h _ List.mem_cons_self
  | octet _ _ _ =>
      cases h _ List.mem_cons_self

/-- A text starts with its first lexeme, or with the backslash of its first lexeme. -/
theorem Written.head {s : Text} {l : Lexeme} {ls : List Lexeme} (h : Written s (l :: ls)) :
    ∃ c t, s = c :: t ∧ (l = .char c ∨ c = '\\') := by
  cases h with
  | char _ _ => exact ⟨_, _, rfl, .inl rfl⟩
  | escaped _ _ => exact ⟨_, _, rfl, .inr rfl⟩
  | octet _ _ => exact ⟨_, _, rfl, .inr rfl⟩

theorem not_faulty_of_isUnit {isVerbatim : Char → Bool} {ls : List Lexeme}
    (h : ∀ l ∈ ls, l.isUnit isVerbatim) (d : Defect) : .faulty d ∉ ls := by
  intro hMem
  cases h _ hMem

end Lexeme

namespace Value

theorem ofElement_eq_ok_iff {e : Der.Element} {v : Text} :
    ofElement e = .ok v ↔ IsStringTag e.tag ∧ Utf8.encode v = e.content := by
  rw [ofElement, ← Utf8.decode?_eq_some_iff]
  constructor
  · intro h
    split at h
    · rename_i hTag
      split at h
      · cases h
      · rename_i s hContent
        rcases Except.ok.inj h with rfl
        exact ⟨hTag, hContent⟩
    · cases h
  · intro h
    rcases h with ⟨hTag, hContent⟩
    have hListed : e.tag = Der.Tag.utf8String ∨ e.tag = Der.Tag.printableString ∨
        e.tag = Der.Tag.ia5String := hTag
    rw [if_pos hListed, hContent]

theorem ofElement_eq_error_iff {e : Der.Element} {d : Defect} :
    ofElement e = .error d ↔
      ¬ IsStringTag e.tag ∧ d = .unsupportedValueType e.tag ∨
        IsStringTag e.tag ∧ (∀ v, Utf8.encode v ≠ e.content) ∧ d = .valueNotUtf8 := by
  by_cases hTag : IsStringTag e.tag
  · have hListed : e.tag = Der.Tag.utf8String ∨ e.tag = Der.Tag.printableString ∨
        e.tag = Der.Tag.ia5String := hTag
    rw [ofElement, if_pos hListed]
    simp only [hTag, not_true_eq_false, false_and, false_or, true_and, ne_eq,
      ← Utf8.decode?_eq_some_iff]
    cases Utf8.decode? e.content with
    | none => simp [eq_comm]
    | some v => simp
  · have hUnlisted : ¬ (e.tag = Der.Tag.utf8String ∨ e.tag = Der.Tag.printableString ∨
        e.tag = Der.Tag.ia5String) := hTag
    rw [ofElement, if_neg hUnlisted]
    simp [hTag, eq_comm]

theorem isKnown_of_isStringTag {tag : UInt8} (h : IsStringTag tag) : Der.Tag.isKnown tag := by
  rcases h with rfl | rfl | rfl
  · rfl
  · rfl
  · rfl

theorem readHex_eq_ok_iff_exists {digits v : Text} :
    readHex digits = .ok v ↔
      digits ≠ [] ∧ ∃ octets e, Hex.decode? digits = some octets ∧
        Der.Element.ofOctets octets = .ok e ∧ ofElement e = .ok v := by
  rw [readHex]
  constructor
  · intro h
    split at h
    · cases h
    · rename_i hDigits
      split at h
      · cases h
      · rename_i octets hOctets
        split at h
        · cases h
        · rename_i e he
          refine ⟨?_, octets, e, hOctets, he, h⟩
          rintro rfl
          exact hDigits rfl
  · intro h
    rcases h with ⟨hNe, octets, e, hOctets, he, hv⟩
    rcases Hex.decode?_isSome_iff.1 (by rw [hOctets]; rfl) with ⟨hEven, hAll⟩
    rw [if_neg (by simp [hNe, hEven, hAll]), hOctets]
    simp only [he, hv]

theorem readHex_eq_ok_iff {digits v : Text} :
    readHex digits = .ok v ↔
      ∃ tag, IsStringTag tag ∧
        (Der.Element.toOctets ⟨tag, Utf8.encode v⟩).length ≤ Der.maxLength ∧
          Text.lower digits = Hex.encode (Der.Element.toOctets ⟨tag, Utf8.encode v⟩) := by
  rw [readHex_eq_ok_iff_exists]
  constructor
  · intro h
    rcases h with ⟨-, octets, e, hOctets, he, hv⟩
    -- The element is determined by its octets and by its text.
    rcases Der.Element.ofOctets_eq_ok_iff.1 he with ⟨rfl, hComplete⟩
    rcases ofElement_eq_ok_iff.1 hv with ⟨hTag, hContent⟩
    refine ⟨e.tag, hTag, ?_, ?_⟩
    · rw [hContent]
      exact hComplete.short
    · rw [hContent]
      exact Hex.decode?_eq_some_iff.1 hOctets
  · intro h
    rcases h with ⟨tag, hTag, hShort, hDigits⟩
    refine ⟨?_, _, ⟨tag, Utf8.encode v⟩, Hex.decode?_eq_some_iff.2 hDigits, ?_, ?_⟩
    · rintro rfl
      cases hDigits
    · exact Der.Element.ofOctets_eq_ok_iff.2 ⟨rfl, isKnown_of_isStringTag hTag, hShort⟩
    · exact ofElement_eq_ok_iff.2 ⟨hTag, rfl⟩

/-- The digits of an element are read as the element, whatever its type. -/
theorem readHex_of_lower_eq {digits : Text} {e : Der.Element} (he : e.Complete)
    (h : Text.lower digits = Hex.encode e.toOctets) : readHex digits = ofElement e := by
  have hOctets : Hex.decode? digits = some e.toOctets := Hex.decode?_eq_some_iff.2 h
  have hElement : Der.Element.ofOctets e.toOctets = .ok e :=
    Der.Element.ofOctets_eq_ok_iff.2 ⟨rfl, he⟩
  rcases Hex.decode?_isSome_iff.1 (by rw [hOctets]; rfl) with ⟨hEven, hAll⟩
  have hNe : digits ≠ [] := by
    rintro rfl
    cases h
  rw [readHex, if_neg (by simp [hNe, hEven, hAll]), hOctets]
  simp only [hElement]

theorem isPadding_of_isDigit {c : Char} (h : Hex.isDigit c) : Text.isPadding c = false := by
  rw [Bool.eq_false_iff]
  intro hPadding
  rcases Text.isPadding_iff.1 hPadding with rfl | rfl
  · cases h
  · cases h

theorem read_of_quote {raw s : Text} (h : Text.trimStart Text.isPadding raw = '"' :: s) :
    read raw = readQuoted .empty (Lexeme.list s) := by
  rw [read, h]
  rfl

theorem read_of_hash {raw s : Text} (h : Text.trimStart Text.isPadding raw = '#' :: s) :
    read raw = readHex (Text.trimEnd Text.isPadding s) := by
  rw [read, h]
  rfl

theorem read_of_bare {raw s : Text} (h : Text.trimStart Text.isPadding raw = s)
    (hHead : ∀ c, s.head? = some c → c ≠ '"' ∧ c ≠ '#') :
    read raw = readUnquoted .empty (Lexeme.list s) := by
  rw [read, h]
  split
  · exact absurd rfl (hHead '"' rfl).1
  · exact absurd rfl (hHead '#' rfl).2
  · rfl

theorem readQuoted_list_eq_ok_iff {s v : Text} :
    readQuoted .empty (Lexeme.list s) = .ok v ↔
      ∃ body trail units, s = body ++ '"' :: trail ∧ IsPadding trail ∧
        Lexeme.Written body units ∧ (∀ l ∈ units, l.isUnit isQuotable) ∧
          Lexeme.Denotes units v := by
  constructor
  · intro h
    rcases exists_body_of_readQuoted h with ⟨units, rest, hList, hUnits⟩
    rw [hList] at h
    rcases (readQuoted_eq_ok_iff hUnits).1 h with ⟨hRest, hReads⟩
    -- No lexeme is faulty, so that the lexemes and the text are cut at the same places.
    have hDenotes := Buffer.reads_empty_iff.1 hReads
    have hPads := List.all_eq_true.1 hRest
    have hWritten : Lexeme.Written s (Lexeme.list s) := by
      apply Lexeme.written_list
      intro d hMem
      rw [hList] at hMem
      rcases List.mem_append.1 hMem with hMem | hMem
      · exact Lexeme.not_faulty_of_isUnit hUnits d hMem
      · rcases List.mem_cons.1 hMem with hMem | hMem
        · cases hMem
        · cases hPads _ hMem
    rw [hList] at hWritten
    rcases hWritten.split with ⟨body, back, rfl, hBody, hBack⟩
    cases hBack with
    | char _ hTrail =>
        exact ⟨body, _, units, rfl, Lexeme.isPadding_of_written hTrail hPads, hBody, hUnits,
          hDenotes⟩
  · intro h
    rcases h with ⟨body, trail, units, rfl, hTrail, hBody, hUnits, hDenotes⟩
    have hList : Lexeme.list (body ++ '"' :: trail) =
        units ++ .char '"' :: trail.map .char := by
      rw [Lexeme.list_append_of_written hBody, Lexeme.list_char (by decide),
        Lexeme.list_eq_of_written (Lexeme.written_of_isPadding hTrail)]
    rw [hList, readQuoted_eq_ok_iff hUnits]
    exact ⟨List.all_eq_true.2 (Lexeme.all_isPaddingLexeme hTrail),
      Buffer.reads_empty_iff.2 hDenotes⟩

theorem readUnquoted_list_eq_ok_iff {s v : Text} :
    readUnquoted .empty (Lexeme.list s) = .ok v ↔
      ∃ body trail units, s = body ++ trail ∧ IsPadding trail ∧
        Lexeme.Written body units ∧ (∀ l ∈ units, l.isUnit isBare) ∧
          (∀ c, units.getLast? = some (.char c) → Text.isPadding c = false) ∧
            Lexeme.Denotes units v := by
  constructor
  · intro h
    -- The value ends in front of the longest run of padding at the end.
    have hAll := isUnit_of_readUnquoted h
    have hWritten := Lexeme.written_list (Lexeme.not_faulty_of_isUnit hAll)
    rcases Text.exists_trimmedEnd isPaddingLexeme (Lexeme.list s) with
      ⟨units, pads, hList, hPads, hLast⟩
    rw [hList] at h hAll hWritten
    have hUnits : ∀ l ∈ units, l.isUnit isBare := by
      intro l hl
      exact hAll l (List.mem_append_left _ hl)
    have hReads := (readUnquoted_eq_ok_iff hUnits hPads hLast fun _ _ => rfl).1 h
    have hDenotes := Buffer.reads_empty_iff.1 hReads
    rcases hWritten.split with ⟨body, trail, rfl, hBody, hTrail⟩
    refine ⟨body, trail, units, rfl, Lexeme.isPadding_of_written hTrail hPads, hBody, hUnits, ?_,
      hDenotes⟩
    intro c hc
    exact hLast _ hc
  · intro h
    rcases h with ⟨body, trail, units, rfl, hTrail, hBody, hUnits, hLast, hDenotes⟩
    have hList : Lexeme.list (body ++ trail) = units ++ trail.map .char := by
      rw [Lexeme.list_append_of_written hBody,
        Lexeme.list_eq_of_written (Lexeme.written_of_isPadding hTrail)]
    have hLast' : ∀ l, units.getLast? = some l → isPaddingLexeme l = false := by
      intro l hl
      cases l with
      | char c => exact hLast c hl
      | escaped c => rfl
      | octet o => rfl
      | faulty d => rfl
    rw [hList, readUnquoted_eq_ok_iff hUnits (Lexeme.all_isPaddingLexeme hTrail) hLast'
      fun _ _ => rfl]
    exact Buffer.reads_empty_iff.2 hDenotes

theorem spells_of_read {raw v : Text} (h : read raw = .ok v) : Spells raw v := by
  rcases Text.trimStart_eq_iff.1 (rfl : Text.trimStart Text.isPadding raw = _) with
    ⟨lead, hRaw, hLead, hHead⟩
  generalize hRest : Text.trimStart Text.isPadding raw = rest at hRaw hHead
  -- The first character behind the padding tells the three forms apart.
  by_cases hQuote : rest.head? = some '"'
  · rcases List.head?_eq_some_iff.1 hQuote with ⟨s, rfl⟩
    rw [read_of_quote hRest] at h
    rcases readQuoted_list_eq_ok_iff.1 h with
      ⟨body, trail, units, rfl, hTrail, hBody, hUnits, hDenotes⟩
    rw [hRaw]
    exact .quoted hLead hTrail hBody hUnits hDenotes
  by_cases hHash : rest.head? = some '#'
  · rcases List.head?_eq_some_iff.1 hHash with ⟨s, rfl⟩
    rw [read_of_hash hRest] at h
    rcases readHex_eq_ok_iff.1 h with ⟨tag, hTag, hShort, hDigits⟩
    rcases Text.trimEnd_eq_iff.1 (rfl : Text.trimEnd Text.isPadding s = _) with
      ⟨trail, hs, hTrail, -⟩
    rw [hRaw, hs]
    exact .hex hLead hTrail hTag hShort hDigits
  · have hBare : ∀ c, rest.head? = some c → c ≠ '"' ∧ c ≠ '#' := by
      intro c hc
      refine ⟨?_, ?_⟩
      · rintro rfl
        exact hQuote hc
      · rintro rfl
        exact hHash hc
    rw [read_of_bare hRest hBare] at h
    rcases readUnquoted_list_eq_ok_iff.1 h with
      ⟨body, trail, units, rfl, hTrail, hBody, hUnits, hLast, hDenotes⟩
    rw [hRaw]
    refine .unquoted hLead hTrail hBody hUnits ?_ hLast hDenotes
    intro c hc
    rcases List.head?_eq_some_iff.1 hc with ⟨tail, rfl⟩
    cases hBody with
    | char _ _ => exact ⟨hHead c rfl, (hBare c rfl).2⟩

theorem trimStart_append_cons {lead : Text} (hLead : IsPadding lead) {c : Char}
    (hc : Text.isPadding c = false) (s : Text) :
    Text.trimStart Text.isPadding (lead ++ c :: s) = c :: s := by
  refine Text.trimStart_eq_iff.2 ⟨lead, rfl, hLead, ?_⟩
  intro d hd
  rcases Option.some.inj hd with rfl
  exact hc

theorem read_of_isPadding {raw : Text} (h : IsPadding raw) : read raw = .ok [] := by
  have hRest : Text.trimStart Text.isPadding raw = [] := by
    refine Text.trimStart_eq_iff.2 ⟨raw, (List.append_nil raw).symm, h, ?_⟩
    intro c hc
    cases hc
  rw [read_of_bare hRest (by intro c hc; cases hc)]
  rfl

theorem read_of_spells {raw v : Text} (h : Spells raw v) : read raw = .ok v := by
  cases h with
  | @quoted lead s trail v units hLead hTrail hWritten hUnits hDenotes =>
      rw [read_of_quote (trimStart_append_cons hLead rfl _), readQuoted_list_eq_ok_iff]
      exact ⟨s, trail, units, rfl, hTrail, hWritten, hUnits, hDenotes⟩
  | @hex lead digits trail v tag hLead hTrail hTag hShort hDigits =>
      have hTrimmed : Text.trimEnd Text.isPadding (digits ++ trail) = digits := by
        refine Text.trimEnd_eq_iff.2 ⟨trail, rfl, hTrail, ?_⟩
        intro c hc
        exact isPadding_of_isDigit (Hex.isDigit_of_lower_eq hDigits (List.mem_of_getLast? hc))
      rw [read_of_hash (trimStart_append_cons hLead rfl _), hTrimmed, readHex_eq_ok_iff]
      exact ⟨tag, hTag, hShort, hDigits⟩
  | @unquoted lead s trail v units hLead hTrail hWritten hUnits hFirst hLast hDenotes =>
      cases units with
      | nil =>
          -- The empty value is spelled by padding alone.
          cases hWritten
          rw [Lexeme.denotes_nil_iff.1 hDenotes]
          exact read_of_isPadding (List.forall_mem_append.2 ⟨hLead, hTrail⟩)
      | cons l units =>
          -- The first character tells that the value is neither quoted nor hexadecimal.
          rcases hWritten.head with ⟨d, t, rfl, hd⟩
          have hMark : Text.isPadding d = false ∧ d ≠ '"' ∧ d ≠ '#' := by
            rcases hd with rfl | rfl
            · have hBare : isBare d := hUnits _ List.mem_cons_self
              rcases hFirst d rfl with ⟨hPadding, hHash⟩
              refine ⟨hPadding, ?_, hHash⟩
              rintro rfl
              cases hBare
            · decide
          have hHead : ∀ c, (d :: (t ++ trail)).head? = some c → c ≠ '"' ∧ c ≠ '#' := by
            intro c hc
            rcases Option.some.inj hc with rfl
            exact hMark.2
          rw [List.cons_append, read_of_bare (trimStart_append_cons hLead hMark.1 _) hHead,
            ← List.cons_append, readUnquoted_list_eq_ok_iff]
          exact ⟨d :: t, trail, l :: units, rfl, hTrail, hWritten, hUnits, hLast, hDenotes⟩

/-- A value is read exactly if its text spells it. -/
theorem read_eq_ok_iff {raw v : Text} : read raw = .ok v ↔ Spells raw v :=
  ⟨spells_of_read, read_of_spells⟩

end Value

end MemberNames
