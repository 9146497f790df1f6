import MemberNames.Proofs.Rdn.Decompose
import Mathlib.Data.List.Infix

/-!
# The two passes agree

Both passes know quotes and escapes, and each by its own rules: the first one toggles at every quote
and skips one character behind a backslash, the second one looks at a quote only where a value
begins and may take two characters behind a backslash. Still the second pass never meets an open
quote, a backslash at the end or a reserved character, although it has a defect for each of them.
Wherever it would, the first pass has gone through the same text up to the same point, and it has
refused the text or cut it there.

* `Segment.Stops`: the points at which the first pass is before the second one
* `Defect.IsExcluded`, `IsExcludedReason`: the defects that never come out, and their wording
* `Segment.Stops.cutFrom_eq_error`, `Segment.Stops.exists_cut`: what the first pass does there
* `Value.stops_of_read`, `Rdn.stops_of_ofSegment`: the second pass, read against the first one
* `Rdn.passes_agree`: no text is refused for them
-/

namespace MemberNames

/-! ## Defects that the second pass has in vain -/

def Defect.IsExcluded : Defect → Prop
  | .unterminatedQuotes | .danglingValueEscape | .unescapedInValue _ | .hexConversion => True
  | _ => False

/-- The wording of these defects; the last one goes on with what is wrong with a digit. -/
def IsExcludedReason (reason : Text) : Prop :=
  reason = "unterminated quoted value".toList ∨
    reason = "value ends with a dangling escape".toList ∨
      (∃ c ∈ ['<', '>', '+', ',', ';'],
        reason = "unescaped '".toList ++ [c] ++ "' in value".toList) ∨
        "invalid hex-encoded value: ".toList <+: reason

/-- How such a reason begins. -/
def excludedStarts : List Text :=
  ["unterminated quoted value".toList, "value ends with a dangling escape".toList,
    "unescaped '<' in value".toList, "unescaped '>' in value".toList,
    "unescaped '+' in value".toList, "unescaped ',' in value".toList,
    "unescaped ';' in value".toList, "invalid hex-encoded value: ".toList]

theorem exists_start_of_isExcludedReason {reason : Text} (h : IsExcludedReason reason) :
    ∃ start ∈ excludedStarts, start <+: reason := by
  rcases h with rfl | rfl | ⟨c, hc, rfl⟩ | h
  · exact ⟨_, by decide, List.prefix_refl _⟩
  · exact ⟨_, by decide, List.prefix_refl _⟩
  · refine ⟨_, ?_, List.prefix_refl _⟩
    simp only [List.mem_cons, List.not_mem_nil, or_false] at hc
    rcases hc with rfl | rfl | rfl | rfl | rfl <;> decide
  · exact ⟨_, by decide, h⟩

theorem not_isExcludedReason_of_prefix {front reason : Text} (hFront : front <+: reason)
    (h : ∀ start ∈ excludedStarts, ¬ front <+: start ∧ ¬ start <+: front) :
    ¬ IsExcludedReason reason := by
  intro hReason
  rcases exists_start_of_isExcludedReason hReason with ⟨start, hMem, hStart⟩
  rcases List.prefix_or_prefix_of_prefix hFront hStart with hPrefix | hPrefix
  · exact (h start hMem).1 hPrefix
  · exact (h start hMem).2 hPrefix

/-- No other defect shares its wording with one of these. -/
theorem Defect.not_isExcludedReason_message {d : Defect} (h : ¬ d.IsExcluded) :
    ¬ IsExcludedReason d.message := by
  cases d with
  | unterminatedQuotes | danglingValueEscape | unescapedInValue _ | hexConversion =>
      exact absurd trivial h
  | unescapedOutsideQuotes c =>
      -- The wordings part behind the quoted character.
      intro hReason
      rcases exists_start_of_isExcludedReason hReason with ⟨start, hMem, hStart⟩
      have hTails : ∀ start ∈ excludedStarts, ¬ start.drop 12 <+: "' outside quotes".toList := by
        decide
      exact hTails start hMem (List.IsPrefix.drop hStart 12)
  | noSeparator _ | invalidType _ | invalidHexValue _ =>
      exact not_isExcludedReason_of_prefix ⟨_, (List.append_assoc _ _ _).symm⟩ (by decide)
  | invalidEscape _ | invalidElement _ | unsupportedValueType _ =>
      exact not_isExcludedReason_of_prefix (List.prefix_append _ _) (by decide)
  | multiValued | danglingEscape | unbalancedQuotes | emptyRdn | emptyType | strayQuote
  | textAfterQuotes | incompleteHexEscape | escapesNotUtf8 | valueNotUtf8 =>
      exact not_isExcludedReason_of_prefix (List.prefix_refl _) (by decide)

/-! ## Points at which the first pass is first -/

namespace Segment

/-- A text that the first pass, inside quotes or not, goes through up to a point where it has to
refuse the text or to cut it, and what the second pass would say there. -/
inductive Stops : Bool → Text → Defect → Prop where
  | quotes {quoted : Bool} {s : Text} :
      Spans quoted s true → Stops quoted s .unterminatedQuotes
  | escape {quoted quoted' : Bool} {s : Text} :
      Spans quoted s quoted' → Stops quoted (s ++ ['\\']) .danglingValueEscape
  | reserved {quoted : Bool} {c : Char} {s rest : Text} :
      Spans quoted s false → Value.isReserved c →
        Stops quoted (s ++ c :: rest) (.unescapedInValue c)

theorem Stops.append {quoted quoted' : Bool} {front s : Text} {d : Defect}
    (hFront : Spans quoted front quoted') (h : Stops quoted' s d) :
    Stops quoted (front ++ s) d := by
  cases h with
  | quotes hs =>
      exact .quotes (hFront.append hs)
  | escape hs =>
      rw [← List.append_assoc]
      exact .escape (hFront.append hs)
  | reserved hs hc =>
      rw [← List.append_assoc]
      exact .reserved (hFront.append hs) hc

/-- What the first pass says instead; it does not refuse a separator. -/
def instead? : Defect → Option Defect
  | .unterminatedQuotes => some .unbalancedQuotes
  | .danglingValueEscape => some .danglingEscape
  | .unescapedInValue c =>
    if isSeparator c then none
    else if c = '+' then some .multiValued
    else some (.unescapedOutsideQuotes c)
  | _ => none

theorem Stops.cutFrom_eq_error {quoted : Bool} {s : Text} {d d' : Defect} (h : Stops quoted s d)
    (hInstead : instead? d = some d') : cutFrom quoted s = .error d' := by
  cases h with
  | quotes hs =>
      cases hInstead
      rw [← List.append_nil s]
      exact cutFrom_append_eq_error hs rfl
  | escape hs =>
      cases hInstead
      exact cutFrom_append_eq_error hs rfl
  | @reserved c t rest hs hc =>
      refine cutFrom_append_eq_error hs ?_
      have hMem : c ∈ ['<', '>', '+', ',', ';'] := List.contains_iff_mem.1 hc
      simp only [List.mem_cons, List.not_mem_nil, or_false] at hMem
      rcases hMem with rfl | rfl | rfl | rfl | rfl
      · cases hInstead
        rw [cutFrom.eq_def]
        rfl
      · cases hInstead
        rw [cutFrom.eq_def]
        rfl
      · cases hInstead
        rw [cutFrom.eq_def]
        rfl
      -- A separator is not refused.
      · cases hInstead
      · cases hInstead

theorem Stops.exists_cut {quoted : Bool} {s : Text} {c : Char}
    (h : Stops quoted s (.unescapedInValue c)) :
    ∃ before after, s = before ++ c :: after ∧ Spans quoted before false := by
  cases h with
  | reserved hs _ => exact ⟨_, _, rfl, hs⟩

theorem Stops.instead?_cases {quoted : Bool} {s : Text} {d : Defect} (h : Stops quoted s d) :
    (∃ d', instead? d = some d') ∨ ∃ c, isSeparator c ∧ d = .unescapedInValue c := by
  cases h with
  | quotes _ =>
      exact .inl ⟨_, rfl⟩
  | escape _ =>
      exact .inl ⟨_, rfl⟩
  | @reserved c t rest _ _ =>
      by_cases hc : isSeparator c
      · exact .inr ⟨c, hc, rfl⟩
      · refine .inl ?_
        rw [instead?, if_neg hc]
        split
        · exact ⟨_, rfl⟩
        · exact ⟨_, rfl⟩

/-- The first pass does not leave such a text in one piece. -/
theorem Stops.not_spans {s : Text} {d : Defect} (h : Stops false s d) : ¬ Spans false s false := by
  intro hSpans
  have hCut : cutFrom false s = .ok [s] := cutFrom_of_pieces (.last hSpans)
  rcases h.instead?_cases with ⟨d', hInstead⟩ | ⟨c, hc, rfl⟩
  · rw [h.cutFrom_eq_error hInstead] at hCut
    cases hCut
  · rcases h.exists_cut with ⟨before, after, rfl, hBefore⟩
    rw [cutFrom_append_separator hBefore hc, Result.map_eq_ok_iff] at hCut
    rcases hCut with ⟨segments, -, hSegments⟩
    have hLength := congrArg List.length (List.cons.inj hSegments).1
    simp at hLength

end Segment

/-! ## The second pass, read against the first one -/

namespace Value

/-- An unquoted value is read as if no quotes were open. -/
theorem stops_of_readUnquoted {b : Buffer} {s : Text} {d : Defect}
    (h : readUnquoted b (Lexeme.list s) = .error d) (hExcluded : d.IsExcluded) :
    Segment.Stops false s d := by
  have hOctets : d ≠ .escapesNotUtf8 := by
    rintro rfl
    exact hExcluded
  fun_induction Lexeme.list s generalizing b with
  | case1 =>
      exact absurd (Buffer.eq_of_map_flush_eq_error h) hOctets
  | case2 =>
      cases h
      exact .escape (.nil false)
  | case3 | case5 | case7 =>
      cases h
      exact hExcluded.elim
  | case4 c high hHigh c' s low hLow ih =>
      have hDigit : Hex.isDigit c' := by rw [Hex.isDigit, hLow]; rfl
      exact (ih h).append (Lexeme.spans_octet false c hDigit)
  | case6 c s _ _ ih =>
      rcases Buffer.exists_of_bind h hOctets with ⟨b', hRest⟩
      exact (ih hRest).append (.escape c (.nil false))
  | case8 c s hEscape ih =>
      rw [readUnquoted] at h
      split at h
      · cases h
        exact hExcluded.elim
      rename_i hQuote
      split at h
      · rename_i hReserved
        cases h
        exact .reserved (.nil false) hReserved
      rename_i hReserved
      have hBare : isBare c := by simp [isBare, hQuote, hReserved]
      have hSpans : Segment.Spans false [c] false :=
        .outside (isActive_of_isBare hEscape hBare) (.nil false)
      split at h
      · rcases Buffer.exists_of_bind h hOctets with ⟨b', hRest⟩
        exact (ih hRest).append hSpans
      · rcases Buffer.exists_of_bind h hOctets with ⟨b', hRest⟩
        exact (ih hRest).append hSpans

/-- Behind its opening quote, a quoted value is read as if quotes were open. -/
theorem stops_of_readQuoted {b : Buffer} {s : Text} {d : Defect}
    (h : readQuoted b (Lexeme.list s) = .error d) (hExcluded : d.IsExcluded) :
    Segment.Stops true s d := by
  have hOctets : d ≠ .escapesNotUtf8 := by
    rintro rfl
    exact hExcluded
  fun_induction Lexeme.list s generalizing b with
  | case1 =>
      cases h
      exact .quotes (.nil true)
  | case2 =>
      cases h
      exact .escape (.nil true)
  | case3 | case5 | case7 =>
      cases h
      exact hExcluded.elim
  | case4 c high hHigh c' s low hLow ih =>
      have hDigit : Hex.isDigit c' := by rw [Hex.isDigit, hLow]; rfl
      exact (ih h).append (Lexeme.spans_octet true c hDigit)
  | case6 c s _ _ ih =>
      rcases Buffer.exists_of_bind h hOctets with ⟨b', hRest⟩
      exact (ih hRest).append (.escape c (.nil true))
  | case8 c s hEscape ih =>
      rw [readQuoted] at h
      split at h
      · -- Behind the closing quote there is no such defect any more.
        split at h
        · exact absurd (Buffer.eq_of_map_flush_eq_error h) hOctets
        · cases h
          exact hExcluded.elim
      · rename_i hQuote
        rcases Buffer.exists_of_bind h hOctets with ⟨b', hRest⟩
        exact (ih hRest).append (.inside hEscape hQuote (.nil true))

/-- Text that has no octets is refused before its digits are converted. -/
theorem readHex_of_decode?_eq_none {digits : Text} (h : Hex.decode? digits = none) :
    readHex digits = .error (.invalidHexValue digits) := by
  rw [readHex, if_pos]
  by_contra hDigits
  simp only [Bool.or_eq_true, not_or, bne_iff_ne, ne_eq, not_not, Bool.not_eq_true',
    Bool.not_eq_false] at hDigits
  have hDecode : (Hex.decode? digits).isSome :=
    Hex.decode?_isSome_iff.2 ⟨hDigits.1.2, hDigits.2⟩
  rw [h] at hDecode
  cases hDecode

theorem not_isExcluded_of_readHex {digits : Text} {d : Defect} (h : readHex digits = .error d) :
    ¬ d.IsExcluded := by
  cases hDecode : Hex.decode? digits with
  | none =>
      rw [readHex_of_decode?_eq_none hDecode] at h
      cases h
      exact id
  | some octets =>
      rw [readHex] at h
      split at h
      · cases h
        exact id
      simp only [hDecode] at h
      split at h
      · cases h
        exact id
      · rcases ofElement_eq_error_iff.1 h with ⟨-, rfl⟩ | ⟨-, -, rfl⟩
        · exact id
        · exact id

theorem stops_of_read {raw : Text} {d : Defect} (h : read raw = .error d)
    (hExcluded : d.IsExcluded) : Segment.Stops false raw d := by
  rcases Text.trimStart_eq_iff.1 (rfl : Text.trimStart Text.isPadding raw = _) with
    ⟨lead, hRaw, hLead, -⟩
  have hPadding : IsPadding lead := hLead
  rw [hRaw]
  refine .append hPadding.spans ?_
  rw [read] at h
  split at h
  · rename_i s hs
    have hOpen : Segment.Spans false ['"'] true := .quote (.nil true)
    rw [hs]
    exact .append hOpen (stops_of_readQuoted h hExcluded)
  · exact absurd hExcluded (not_isExcluded_of_readHex h)
  · exact stops_of_readUnquoted h hExcluded

end Value

namespace Rdn

/-- Such a defect of a segment is one of its value. -/
theorem exists_value_of_ofSegment {segment : Text} {d : Defect} (h : ofSegment segment = .error d)
    (hExcluded : d.IsExcluded) :
    ∃ rawType t raw, segment = rawType ++ '=' :: raw ∧ AttributeType.read rawType = .ok t ∧
      Value.read raw = .error d := by
  rcases defect_of_ofSegment h with rfl | rfl | ⟨rawType, raw, rfl, hType | ⟨t, hType, hValue⟩⟩
  · exact hExcluded.elim
  · exact hExcluded.elim
  · rcases AttributeType.defect_of_read hType with rfl | rfl
    · exact hExcluded.elim
    · exact hExcluded.elim
  · exact ⟨rawType, t, raw, rfl, hType, hValue⟩

theorem stops_of_ofSegment {segment : Text} {d : Defect} (h : ofSegment segment = .error d)
    (hExcluded : d.IsExcluded) : Segment.Stops false segment d := by
  rcases exists_value_of_ofSegment h hExcluded with ⟨rawType, t, raw, rfl, hType, hValue⟩
  have hEquals : Segment.Spans false ['='] false := .outside rfl (.nil false)
  exact .append (AttributeType.spans_of_read hType)
    (.append hEquals (Value.stops_of_read hValue hExcluded))

/-! ## All texts -/

theorem not_isExcluded_of_cutFrom {quoted : Bool} {s : Text} {d : Defect}
    (h : Segment.cutFrom quoted s = .error d) : ¬ d.IsExcluded := by
  fun_induction Segment.cutFrom quoted s with
  | case1 | case3 | case8 | case9 =>
      cases h
      exact id
  | case2 =>
      cases h
  | case4 _ _ _ ih | case5 _ _ _ ih | case6 _ _ _ _ ih | case7 _ _ _ _ _ _ _ ih
  | case10 _ _ _ _ _ _ _ _ _ ih =>
      exact ih (Result.map_eq_error_iff.1 h)

theorem not_isExcluded_of_decompose {s : Text} {d : Defect} (h : decompose s = .error d) :
    ¬ d.IsExcluded := by
  intro hExcluded
  rcases defect_of_decompose h with hCut | ⟨segments, segment, hPieces, hMem, hSegment⟩
  · exact not_isExcluded_of_cutFrom hCut hExcluded
  -- The second pass is given what the first pass has gone through.
  · exact (stops_of_ofSegment hSegment hExcluded).not_spans (hPieces.spans rfl hMem)

theorem exists_pieces_of_cut {s : Text} {segments : List Text} (h : Segment.cut s = .ok segments) :
    ∃ pieces, Segment.Pieces false s pieces := by
  rw [Segment.cut] at h
  split at h
  · rename_i hPadding
    have hAll : Value.IsPadding s := List.all_eq_true.1 hPadding
    exact ⟨_, .last hAll.spans⟩
  · exact ⟨segments, Segment.pieces_of_cutFrom h⟩

/-- No text is refused for an excluded reason. Where the second pass would have one for what follows
some cut text, the first pass refuses the whole for a reason of its own, or it cuts the whole at the
separator in question. Digits that cannot be converted are refused as digits. -/
theorem passes_agree (s : Text) :
    (∀ d, decompose s = .error d → ¬ IsExcludedReason d.message) ∧
      (∀ digits, Hex.decode? digits = none →
        Value.readHex digits = .error (.invalidHexValue digits)) ∧
      ∀ front segment segments d, s = front ++ segment → Segment.cut front = .ok segments →
        ofSegment segment = .error d → d.IsExcluded →
          (∃ d', Segment.instead? d = some d' ∧ decompose s = .error d') ∨
            ∃ c before after pieces, d = .unescapedInValue c ∧ Segment.isSeparator c ∧
              segment = before ++ c :: after ∧
                Segment.cutFrom false (front ++ before) = .ok pieces ∧
                  Segment.cut s = (Segment.cutFrom false after).map (pieces ++ ·) := by
  refine ⟨?_, fun digits => Value.readHex_of_decode?_eq_none, ?_⟩
  · intro d hRead
    exact Defect.not_isExcludedReason_message (not_isExcluded_of_decompose hRead)
  · rintro front segment segments d rfl hFront hSegment hExcluded
    rcases exists_pieces_of_cut hFront with ⟨pieces, hPieces⟩
    have hStops := stops_of_ofSegment hSegment hExcluded
    have hMem : '=' ∈ front ++ segment := by
      rcases exists_value_of_ofSegment hSegment hExcluded with ⟨rawType, -, raw, rfl, -, -⟩
      exact List.mem_append_right _ (List.mem_append_right _ List.mem_cons_self)
    rcases hStops.instead?_cases with ⟨d', hInstead⟩ | ⟨c, hc, rfl⟩
    · refine .inl ⟨d', hInstead, ?_⟩
      rw [decompose_of_mem hMem,
        hPieces.cutFrom_append_eq_error (hStops.cutFrom_eq_error hInstead)]
      rfl
    · rcases hStops.exists_cut with ⟨before, after, rfl, hBefore⟩
      rcases hPieces.exists_append hBefore with ⟨pieces', hPieces'⟩
      refine .inr ⟨c, before, after, pieces', rfl, hc, rfl,
        Segment.cutFrom_of_pieces hPieces', ?_⟩
      have hAll : ¬ (front ++ (before ++ c :: after)).all Text.isPadding := by
        intro hAll
        cases List.all_eq_true.1 hAll '=' hMem
      rw [Segment.cut, if_neg hAll, ← List.append_assoc, hPieces'.cutFrom_append hc]

theorem passes_agree_open_quote :
    let s : Text := "L=x,O=\"y+".toList
    ofSegment "O=\"y+".toList = .error .unterminatedQuotes ∧
      decompose s = .error .unbalancedQuotes ∧
        ¬ IsExcludedReason (Defect.message .unbalancedQuotes) := by
  intro s
  have hFront : Segment.cut "L=x,".toList = .ok ["L=x".toList, []] := by decide +kernel
  have hSegment : ofSegment "O=\"y+".toList = .error .unterminatedQuotes := by decide +kernel
  have hSplit : s = "L=x,".toList ++ "O=\"y+".toList := by decide +kernel
  have hRead : decompose s = .error .unbalancedQuotes := by
    rcases (passes_agree s).2.2 _ _ _ _ hSplit hFront hSegment trivial with
      ⟨d', hInstead, hRead⟩ | ⟨c, _, _, _, hSame, -⟩
    · cases hInstead
      exact hRead
    · cases hSame
  exact ⟨hSegment, hRead, (passes_agree s).1 _ hRead⟩

end Rdn
end MemberNames
