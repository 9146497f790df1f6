import MemberNames.Proofs.Rdn.AttributeType
import MemberNames.Proofs.Rdn.Spelling
import MemberNames.Rdn.Decompose

/-!
# The grammar of distinguished names

A segment is a type, an equals sign and a value, and a text is segments with a separator between
each two. Reading finds exactly the pairs that a text derives. Its two passes agree because the text
of a derivable segment spans: the first pass goes through it without a cut, whatever stands between
its quotes and behind its backslashes.

* `Rdn.Spells`, `Rdn.Lists`, `Rdn.Derives`: the grammar
* `Rdn.ofSegment_eq_ok_iff`: the second pass
* `Rdn.Spells.spans`: the first pass on a derivable segment
* `Rdn.decompose_eq_ok_iff_derives`: reading and derivation agree
* `Rdn.defect_of_ofSegment`, `Rdn.defect_of_decompose`: where the defect of a text is
-/

namespace MemberNames
namespace Rdn

/-! ## Grammar -/

/-- A segment and the pair that it spells. -/
inductive Spells : Text → Rdn → Prop where
  | intro {lead token trail raw : Text} {r : Rdn} :
      (∀ c ∈ lead, Unicode.isWhiteSpace c) → (∀ c ∈ trail, Unicode.isWhiteSpace c) →
        AttributeType.Denotes token r.attributeType → Value.Spells raw r.value →
          Spells (lead ++ token ++ trail ++ '=' :: raw) r

/-- Segments with a separator between each two, and the pairs that they spell. -/
inductive Lists : Text → List Rdn → Prop where
  | last {s : Text} {r : Rdn} :
      Spells s r → Lists s [r]
  | cons {c : Char} {s t : Text} {r : Rdn} {rs : List Rdn} :
      Spells s r → Segment.isSeparator c → Lists t rs → Lists (s ++ c :: t) (r :: rs)

/-- A text and the pairs that it denotes: none at all, or at least one. -/
def Derives (s : Text) (rdns : List Rdn) : Prop :=
  (Value.IsPadding s ∧ rdns = []) ∨ Lists s rdns

/-! ## Segments -/

theorem not_mem_of_isWhiteSpace {s : Text} (h : ∀ c ∈ s, Unicode.isWhiteSpace c) : '=' ∉ s := by
  intro hMem
  have hWhite := h '=' hMem
  revert hWhite
  decide

/-- The first equals sign ends the type. -/
theorem ofSegment_append {rawType : Text} (h : '=' ∉ rawType) (raw : Text) :
    ofSegment (rawType ++ '=' :: raw) =
      (AttributeType.read rawType >>= fun t => (Value.read raw).map fun v => ⟨t, v⟩) := by
  have hSplit : Text.splitFirst '=' (rawType ++ '=' :: raw) = some (rawType, raw) :=
    Text.splitFirst_eq_some_iff.2 ⟨rfl, h⟩
  have hBlank : ¬ Text.isBlank (rawType ++ '=' :: raw) := by
    intro hAll
    exact not_mem_of_isWhiteSpace (List.all_eq_true.1 hAll)
      (List.mem_append_right _ List.mem_cons_self)
  rw [ofSegment, if_neg hBlank, hSplit]
  rfl

theorem ofSegment_eq_ok_iff {segment : Text} {r : Rdn} :
    ofSegment segment = .ok r ↔ Spells segment r := by
  constructor
  · intro h
    rw [ofSegment] at h
    split at h
    · cases h
    split at h
    · cases h
    · rename_i rawType rawValue hSplit
      rcases Result.bind_eq_ok_iff.1 h with ⟨attributeType, hType, h⟩
      rcases Result.bind_eq_ok_iff.1 h with ⟨value, hValue, h⟩
      cases h
      rcases Text.splitFirst_eq_some_iff.1 hSplit with ⟨rfl, -⟩
      rcases AttributeType.read_eq_ok_iff.1 hType with
        ⟨lead, token, trail, rfl, hDenotes, hLead, hTrail⟩
      exact .intro hLead hTrail hDenotes (Value.read_eq_ok_iff.1 hValue)
  · intro h
    cases h with
    | @intro lead token trail raw r hLead hTrail hDenotes hSpells =>
        have hType : AttributeType.read (lead ++ token ++ trail) = .ok r.attributeType :=
          AttributeType.read_eq_ok_iff.2 ⟨lead, token, trail, rfl, hDenotes, hLead, hTrail⟩
        -- The first equals sign is the one behind the type.
        have hNotMem : '=' ∉ lead ++ token ++ trail := by
          intro hMem
          rcases List.mem_append.1 hMem with hMem | hMem
          · rcases List.mem_append.1 hMem with hMem | hMem
            · exact not_mem_of_isWhiteSpace hLead hMem
            · cases hDenotes.isTokenChar hMem
          · exact not_mem_of_isWhiteSpace hTrail hMem
        rw [ofSegment_append hNotMem, hType, Value.read_of_spells hSpells]
        rfl

/-- A segment has no equals sign, or its type or its value is at fault. -/
theorem defect_of_ofSegment {segment : Text} {d : Defect} (h : ofSegment segment = .error d) :
    d = .emptyRdn ∨ d = .noSeparator (Text.trim Unicode.isWhiteSpace segment) ∨
      ∃ rawType raw, segment = rawType ++ '=' :: raw ∧
        (AttributeType.read rawType = .error d ∨
          ∃ t, AttributeType.read rawType = .ok t ∧ Value.read raw = .error d) := by
  rw [ofSegment] at h
  split at h
  · cases h
    exact .inl rfl
  split at h
  · cases h
    exact .inr (.inl rfl)
  · rename_i rawType raw hSplit
    rcases Text.splitFirst_eq_some_iff.1 hSplit with ⟨rfl, -⟩
    refine .inr (.inr ⟨rawType, raw, rfl, ?_⟩)
    rcases Result.bind_eq_error_iff.1 h with hType | ⟨t, hType, h⟩
    · exact .inl hType
    · rcases Result.bind_eq_error_iff.1 h with hValue | ⟨v, -, h⟩
      · exact .inr ⟨t, hType, hValue⟩
      · cases h

end Rdn

/-! ## The cut on derivable segments -/

namespace Lexeme

theorem isActive_of_isDigit {c : Char} (h : Hex.isDigit c) : Segment.isActive c = false :=
  Segment.isActive_eq_false (by decide) h

/-- The backslash protects the first digit of an octet, and the second one needs no protection. -/
theorem spans_octet (quoted : Bool) (high : Char) {low : Char} (h : Hex.isDigit low) :
    Segment.Spans quoted ['\\', high, low] quoted :=
  .escape high ((Segment.Spans.nil quoted).cons_of_inactive (isActive_of_isDigit h))

/-- Units span if the characters that stand verbatim do. -/
theorem Written.spans {quoted : Bool} {isVerbatim : Char → Bool} {s : Text} {ls : List Lexeme}
    (hs : Written s ls) (hUnits : ∀ l ∈ ls, l.isUnit isVerbatim)
    (hVerbatim : ∀ c, c ≠ '\\' → isVerbatim c → Segment.Spans quoted [c] quoted) :
    Segment.Spans quoted s quoted := by
  induction hs with
  | nil =>
      exact .nil quoted
  | char hc _ ih =>
      rcases List.forall_mem_cons.1 hUnits with ⟨hUnit, hTail⟩
      exact (hVerbatim _ hc hUnit).append (ih hTail)
  | escaped _ _ ih =>
      exact .escape _ (ih (List.forall_mem_cons.1 hUnits).2)
  | octet hb _ ih =>
      have hDigits := Hex.octet?_isSome_iff.1 (by rw [hb]; rfl)
      exact (spans_octet quoted _ hDigits.2).append (ih (List.forall_mem_cons.1 hUnits).2)

end Lexeme

theorem Value.IsPadding.isWhiteSpace {s : Text} (h : IsPadding s) :
    ∀ c ∈ s, Unicode.isWhiteSpace c := by
  intro c hc
  rcases Text.isPadding_iff.1 (h c hc) with rfl | rfl
  · decide
  · decide

theorem Value.IsPadding.spans {s : Text} (h : IsPadding s) : Segment.Spans false s false := by
  refine .of_inactive false ?_
  intro c hc
  exact Segment.isActive_eq_false (by decide) (h c hc)

theorem Value.isActive_of_isBare {c : Char} (hEscape : c ≠ '\\') (hBare : isBare c) :
    Segment.isActive c = false := by
  simp only [isBare, isReserved, Bool.and_eq_true, decide_eq_true_eq, Bool.not_eq_true',
    List.contains_eq_mem, List.mem_cons, List.not_mem_nil, or_false, decide_eq_false_iff_not,
    not_or] at hBare
  simp [Segment.isActive, hEscape, hBare]

theorem Value.Spells.spans {raw v : Text} (h : Spells raw v) : Segment.Spans false raw false := by
  cases h with
  | @quoted lead s trail v units hLead hTrail hWritten hUnits _ =>
      -- The quotes open and close, and no unit between them is a quote.
      have hBody : Segment.Spans true s true := by
        refine hWritten.spans hUnits ?_
        intro c hEscape hQuotable
        exact .inside hEscape (by simpa [isQuotable] using hQuotable) (.nil true)
      exact hLead.spans.append (.quote (hBody.append (.quote hTrail.spans)))
  | @hex lead digits trail v tag hLead hTrail _ _ hDigits =>
      have hBody : Segment.Spans false digits false := by
        refine .of_inactive false ?_
        intro c hc
        exact Lexeme.isActive_of_isDigit (Hex.isDigit_of_lower_eq hDigits hc)
      exact hLead.spans.append (.outside rfl (hBody.append hTrail.spans))
  | @unquoted lead s trail v units hLead hTrail hWritten hUnits _ _ _ =>
      have hBody : Segment.Spans false s false := by
        refine hWritten.spans hUnits ?_
        intro c hEscape hBare
        exact .outside (isActive_of_isBare hEscape hBare) (.nil false)
      exact hLead.spans.append (hBody.append hTrail.spans)

theorem isActive_of_isWhiteSpace {c : Char} (h : Unicode.isWhiteSpace c) :
    Segment.isActive c = false :=
  Segment.isActive_eq_false (by decide) h

/-- A type holds nothing that the cut looks at. -/
theorem AttributeType.spans_of_read {raw t : Text} (h : read raw = .ok t) :
    Segment.Spans false raw false := by
  rcases read_eq_ok_iff.1 h with ⟨lead, token, trail, rfl, hDenotes, hLead, hTrail⟩
  have hWhite : ∀ {s : Text}, (∀ c ∈ s, Unicode.isWhiteSpace c) → Segment.Spans false s false := by
    intro s hs
    exact .of_inactive false fun c hc => isActive_of_isWhiteSpace (hs c hc)
  have hToken : Segment.Spans false token false :=
    .of_inactive false fun c hc => isActive_of_isTokenChar (hDenotes.isTokenChar hc)
  exact ((hWhite hLead).append hToken).append (hWhite hTrail)

namespace Rdn

theorem Spells.mem {segment : Text} {r : Rdn} (h : Spells segment r) : '=' ∈ segment := by
  cases h with
  | intro _ _ _ _ => exact List.mem_append_right _ List.mem_cons_self

/-- The first pass goes through a derivable segment without a cut. -/
theorem Spells.spans {segment : Text} {r : Rdn} (h : Spells segment r) :
    Segment.Spans false segment false := by
  cases h with
  | @intro lead token trail raw r hLead hTrail hDenotes hSpells =>
      have hType : AttributeType.read (lead ++ token ++ trail) = .ok r.attributeType :=
        AttributeType.read_eq_ok_iff.2 ⟨lead, token, trail, rfl, hDenotes, hLead, hTrail⟩
      exact (AttributeType.spans_of_read hType).append (.outside rfl hSpells.spans)

/-! ## Both passes -/

theorem pieces_of_lists {s : Text} {rdns : List Rdn} (h : Lists s rdns) :
    ∃ segments, Segment.Pieces false s segments ∧ segments.map ofSegment = rdns.map .ok := by
  -- Each segment spans, so that the cut is at the separators of the derivation.
  induction h with
  | last hr =>
      refine ⟨_, .last hr.spans, ?_⟩
      rw [List.map_singleton, List.map_singleton, ofSegment_eq_ok_iff.2 hr]
  | cons hr hc _ ih =>
      rcases ih with ⟨segments, hPieces, hRead⟩
      refine ⟨_, .cons hr.spans hc hPieces, ?_⟩
      rw [List.map_cons, List.map_cons, ofSegment_eq_ok_iff.2 hr, hRead]

theorem lists_of_pieces {quoted : Bool} {s : Text} {segments : List Text} {rdns : List Rdn}
    (h : Segment.Pieces quoted s segments) (hRead : segments.map ofSegment = rdns.map .ok) :
    Lists s rdns := by
  induction h generalizing rdns with
  | last _ =>
      rcases List.map_eq_cons_iff.1 hRead.symm with ⟨r, rs, rfl, hr, hRest⟩
      rcases List.map_eq_nil_iff.1 hRest with rfl
      exact .last (ofSegment_eq_ok_iff.1 hr.symm)
  | cons _ hc _ ih =>
      rcases List.map_eq_cons_iff.1 hRead.symm with ⟨r, rs, rfl, hr, hRest⟩
      exact .cons (ofSegment_eq_ok_iff.1 hr.symm) hc (ih hRest.symm)

/-- The pairs of a text are found segment by segment. -/
theorem lists_iff {s : Text} {rdns : List Rdn} :
    (Segment.cutFrom false s >>= fun segments => segments.mapM ofSegment) = .ok rdns ↔
      Lists s rdns := by
  rw [Result.bind_eq_ok_iff]
  simp only [Segment.cutFrom_eq_ok_iff, Result.mapM_eq_ok_iff]
  constructor
  · intro h
    rcases h with ⟨segments, hPieces, hRead⟩
    exact lists_of_pieces hPieces hRead
  · exact pieces_of_lists

/-- A text that is not all padding is cut. -/
theorem decompose_of_exists {s : Text} (h : ∃ c ∈ s, Text.isPadding c = false) :
    decompose s = (Segment.cutFrom false s >>= fun segments => segments.mapM ofSegment) := by
  rcases h with ⟨c, hc, hPadding⟩
  have hAll : ¬ s.all Text.isPadding := by
    intro hAll
    rw [List.all_eq_true.1 hAll c hc] at hPadding
    cases hPadding
  rw [decompose, Segment.cut, if_neg hAll]

theorem decompose_of_mem {s : Text} (h : '=' ∈ s) :
    decompose s = (Segment.cutFrom false s >>= fun segments => segments.mapM ofSegment) :=
  decompose_of_exists ⟨'=', h, rfl⟩

/-- A text is at fault where it is cut, or in one of its segments. -/
theorem defect_of_decompose {s : Text} {d : Defect} (h : decompose s = .error d) :
    Segment.cutFrom false s = .error d ∨
      ∃ segments segment, Segment.Pieces false s segments ∧ segment ∈ segments ∧
        ofSegment segment = .error d := by
  rw [decompose, Segment.cut] at h
  split at h
  · cases h
  rcases Result.bind_eq_error_iff.1 h with hCut | ⟨segments, hCut, hSegments⟩
  · exact .inl hCut
  · rcases Result.mapM_eq_error_iff.1 hSegments with ⟨before, segment, after, rfl, -, hSegment⟩
    exact .inr ⟨_, segment, Segment.pieces_of_cutFrom hCut,
      List.mem_append_right _ List.mem_cons_self, hSegment⟩

theorem Lists.mem {s : Text} {rdns : List Rdn} (h : Lists s rdns) : '=' ∈ s := by
  cases h with
  | last hr => exact hr.mem
  | cons hr _ _ => exact List.mem_append_left _ hr.mem

theorem Lists.not_isPadding {s : Text} {rdns : List Rdn} (h : Lists s rdns) :
    ¬ Value.IsPadding s := by
  intro hPadding
  cases hPadding '=' h.mem

theorem decompose_of_lists {s : Text} {rdns : List Rdn} (h : Lists s rdns) :
    decompose s = .ok rdns := by
  rw [decompose_of_mem h.mem]
  exact lists_iff.2 h

/-- A text that is read as pairs lists them. -/
theorem lists_of_decompose {s : Text} {rdns : List Rdn} (h : decompose s = .ok rdns)
    (hNe : rdns ≠ []) : Lists s rdns := by
  rw [decompose, Segment.cut] at h
  split at h
  · exact absurd (Except.ok.inj h).symm hNe
  · exact lists_iff.1 h

/-- A text is read exactly if it derives pairs, and these are the pairs that are read. -/
theorem decompose_eq_ok_iff_derives {s : Text} {rdns : List Rdn} :
    decompose s = .ok rdns ↔ Derives s rdns := by
  by_cases hPadding : s.all Text.isPadding
  · have hAll : Value.IsPadding s := List.all_eq_true.1 hPadding
    have hEmpty : decompose s = .ok [] := by
      rw [decompose, Segment.cut, if_pos hPadding]
      rfl
    rw [hEmpty]
    constructor
    · intro h
      exact .inl ⟨hAll, (Except.ok.inj h).symm⟩
    · rintro (⟨-, rfl⟩ | hLists)
      · rfl
      · exact absurd hAll hLists.not_isPadding
  · constructor
    · intro h
      rw [decompose, Segment.cut, if_neg hPadding] at h
      exact .inr (lists_iff.1 h)
    · rintro (⟨hAll, -⟩ | hLists)
      · exact absurd (List.all_eq_true.2 hAll) hPadding
      · exact decompose_of_lists hLists

end Rdn
end MemberNames
