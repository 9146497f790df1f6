import MemberNames.Proofs.Result
import MemberNames.Rdn.Segment

/-!
# Where a text is cut

A text is cut at its separators outside quotes and nowhere else. A piece of text *spans* from one
state of quoting to another if the cut goes through it without a separator and without a defect.
The segments of a text are pieces that end outside quotes, with one separator between each two.

* `Segment.Spans`: the pieces of text that the cut goes through
* `Segment.cutFrom_append`, `Segment.cutFrom_append_separator`: how the cut goes through a piece
* `Segment.Pieces`, `Segment.cutFrom_eq_ok_iff`: the one way in which a text is cut
* `Segment.cut_intercalate`: segments in another order
-/

namespace MemberNames
namespace Segment

def isSeparator (c : Char) : Bool :=
  c = ',' || c = ';'

/-- Whether the cut looks at a character outside quotes. -/
def isActive (c : Char) : Bool :=
  ['\\', '"', ',', ';', '+', '<', '>'].contains c

/-- A class without any of the characters that the cut looks at. -/
theorem isActive_eq_false {p : Char → Bool}
    (hAll : ['\\', '"', ',', ';', '+', '<', '>'].all (!p ·)) {c : Char} (h : p c) :
    isActive c = false := by
  rw [Bool.eq_false_iff]
  intro hActive
  have hc := List.all_eq_true.1 hAll c (List.contains_iff_mem.1 hActive)
  rw [h] at hc
  cases hc

/-! ## Single characters -/

theorem cutFrom_escape (quoted : Bool) (c : Char) (s : Text) :
    cutFrom quoted ('\\' :: c :: s) = (cutFrom quoted s).map (extend ['\\', c]) := by
  rw [cutFrom.eq_def]
  rfl

theorem cutFrom_quote (quoted : Bool) (s : Text) :
    cutFrom quoted ('"' :: s) = (cutFrom (!quoted) s).map (extend ['"']) := by
  rw [cutFrom.eq_def]
  rfl

theorem cutFrom_inside {c : Char} (hEscape : c ≠ '\\') (hQuote : c ≠ '"') (s : Text) :
    cutFrom true (c :: s) = (cutFrom true s).map (extend [c]) := by
  rw [cutFrom.eq_def]
  simp only [hEscape, hQuote, if_false, if_true]

theorem cutFrom_separator {c : Char} (h : isSeparator c) (s : Text) :
    cutFrom false (c :: s) = (cutFrom false s).map ([] :: ·) := by
  have hCases : c = ',' ∨ c = ';' := by simpa [isSeparator] using h
  rcases hCases with rfl | rfl
  · rw [cutFrom.eq_def]
    rfl
  · rw [cutFrom.eq_def]
    rfl

theorem cutFrom_outside {c : Char} (h : isActive c = false) (s : Text) :
    cutFrom false (c :: s) = (cutFrom false s).map (extend [c]) := by
  simp only [isActive, List.contains_eq_mem, List.mem_cons, List.not_mem_nil, or_false,
    decide_eq_false_iff_not, not_or] at h
  rcases h with ⟨hEscape, hQuote, hComma, hSemicolon, hPlus, hLess, hGreater⟩
  rw [cutFrom.eq_def]
  simp [hEscape, hQuote, hComma, hSemicolon, hPlus, hLess, hGreater]

/-! ## Pieces of text -/

/-- A piece that is neither cut nor defective, from a point inside quotes or not to another. -/
inductive Spans : Bool → Text → Bool → Prop where
  | nil (quoted : Bool) :
      Spans quoted [] quoted
  | escape (c : Char) {quoted quoted' : Bool} {s : Text} :
      Spans quoted s quoted' → Spans quoted ('\\' :: c :: s) quoted'
  | quote {quoted quoted' : Bool} {s : Text} :
      Spans (!quoted) s quoted' → Spans quoted ('"' :: s) quoted'
  | inside {c : Char} {quoted' : Bool} {s : Text} :
      c ≠ '\\' → c ≠ '"' → Spans true s quoted' → Spans true (c :: s) quoted'
  | outside {c : Char} {quoted' : Bool} {s : Text} :
      isActive c = false → Spans false s quoted' → Spans false (c :: s) quoted'

namespace Spans

theorem append {quoted quoted' quoted'' : Bool} {s t : Text} (hs : Spans quoted s quoted')
    (ht : Spans quoted' t quoted'') : Spans quoted (s ++ t) quoted'' := by
  induction hs with
  | nil _ => exact ht
  | escape c _ ih => exact .escape c (ih ht)
  | quote _ ih => exact .quote (ih ht)
  | inside hc hc' _ ih => exact .inside hc hc' (ih ht)
  | outside hc _ ih => exact .outside hc (ih ht)

theorem cons_of_inactive {c : Char} {quoted quoted' : Bool} {s : Text}
    (hc : isActive c = false) (hs : Spans quoted s quoted') : Spans quoted (c :: s) quoted' := by
  cases quoted with
  | false =>
      exact .outside hc hs
  | true =>
      refine .inside ?_ ?_ hs
      · rintro rfl
        cases hc
      · rintro rfl
        cases hc

/-- Text without any character that the cut looks at spans wherever it stands. -/
theorem of_inactive {s : Text} (quoted : Bool) (h : ∀ c ∈ s, isActive c = false) :
    Spans quoted s quoted := by
  induction s with
  | nil =>
      exact .nil quoted
  | cons c s ih =>
      rcases List.forall_mem_cons.1 h with ⟨hc, hs⟩
      exact cons_of_inactive hc (ih hs)

end Spans

/-- A text as pieces with a separator between each two; the first one begins inside quotes or
not, and all of them end outside quotes. -/
inductive Pieces : Bool → Text → List Text → Prop where
  | last {quoted : Bool} {s : Text} :
      Spans quoted s false → Pieces quoted s [s]
  | cons {quoted : Bool} {c : Char} {s t : Text} {segments : List Text} :
      Spans quoted s false → isSeparator c → Pieces false t segments →
        Pieces quoted (s ++ c :: t) (s :: segments)

/-- What spans in front of a text belongs to its first piece. -/
theorem Pieces.extend {quoted quoted' : Bool} {p s : Text} {segments : List Text}
    (hp : Spans quoted p quoted') (h : Pieces quoted' s segments) :
    Pieces quoted (p ++ s) (Segment.extend p segments) := by
  cases h with
  | last hs =>
      exact .last (hp.append hs)
  | cons hs hc ht =>
      rw [← List.append_assoc]
      exact .cons (hp.append hs) hc ht

theorem Pieces.mem {quoted : Bool} {s segment : Text} {segments : List Text} {c : Char}
    (h : Pieces quoted s segments) (hSegment : segment ∈ segments) (hc : c ∈ segment) : c ∈ s := by
  induction h with
  | last _ =>
      rcases List.mem_singleton.1 hSegment with rfl
      exact hc
  | cons _ _ _ ih =>
      rcases List.mem_cons.1 hSegment with rfl | hMem
      · exact List.mem_append_left _ hc
      · exact List.mem_append_right _ (List.mem_cons_of_mem _ (ih hMem))

theorem Pieces.spans {quoted : Bool} {s segment : Text} {segments : List Text}
    (h : Pieces quoted s segments) (hQuoted : quoted = false) (hSegment : segment ∈ segments) :
    Spans false segment false := by
  induction h with
  | last hs =>
      rcases List.mem_singleton.1 hSegment with rfl
      rw [hQuoted] at hs
      exact hs
  | cons hs _ _ ih =>
      rcases List.mem_cons.1 hSegment with rfl | hMem
      · rw [hQuoted] at hs
        exact hs
      · exact ih rfl hMem

/-- What spans behind a text belongs to its last piece. -/
theorem Pieces.exists_append {quoted : Bool} {s t : Text} {segments : List Text}
    (h : Pieces quoted s segments) (ht : Spans false t false) :
    ∃ segments', Pieces quoted (s ++ t) segments' := by
  induction h with
  | last hs =>
      exact ⟨_, .last (hs.append ht)⟩
  | cons hs hc _ ih =>
      rcases ih with ⟨segments', hRest⟩
      rw [List.append_assoc, List.cons_append]
      exact ⟨_, .cons hs hc hRest⟩

/-- Pieces with a comma and a gap between each two; the gap belongs to the piece behind it. -/
theorem pieces_intercalate {gap s : Text} {segments : List Text} (hGap : Spans false gap false)
    (h : ∀ t ∈ s :: segments, Spans false t false) :
    Pieces false ((',' :: gap).intercalate (s :: segments)) (s :: segments.map (gap ++ ·)) := by
  induction segments generalizing s with
  | nil =>
      simpa using Pieces.last (h s List.mem_cons_self)
  | cons t segments ih =>
      rcases List.forall_mem_cons.1 h with ⟨hs, hRest⟩
      have hPieces := Pieces.cons hs (c := ',') rfl (Pieces.extend hGap (ih hRest))
      simpa [List.intercalate_cons_cons, Segment.extend] using hPieces

/-! ## What the cut finds -/

theorem pieces_of_cutFrom {quoted : Bool} {s : Text} {segments : List Text}
    (h : cutFrom quoted s = .ok segments) : Pieces quoted s segments := by
  fun_induction cutFrom quoted s generalizing segments with
  -- The defects come first.
  | case1 | case3 | case8 | case9 =>
      cases h
  | case2 quoted hOutside =>
      have hQuoted : quoted = false := by simpa using hOutside
      subst hQuoted
      cases h
      exact .last (.nil false)
  -- A backslash takes the character behind it along, inside quotes and outside.
  | case4 quoted d s ih =>
      rcases Result.map_eq_ok_iff.1 h with ⟨segments', hRest, rfl⟩
      exact .extend (.escape d (.nil quoted)) (ih hRest)
  | case5 quoted s hNe ih =>
      rcases Result.map_eq_ok_iff.1 h with ⟨segments', hRest, rfl⟩
      exact .extend (.quote (.nil (!quoted))) (ih hRest)
  | case6 c s hEscape hQuote ih =>
      rcases Result.map_eq_ok_iff.1 h with ⟨segments', hRest, rfl⟩
      exact .extend (.inside hEscape hQuote (.nil true)) (ih hRest)
  -- A separator ends a piece and begins the next one.
  | case7 quoted c s hEscape hQuote hOutside hc ih =>
      have hQuoted : quoted = false := by simpa using hOutside
      subst hQuoted
      rcases Result.map_eq_ok_iff.1 h with ⟨segments', hRest, rfl⟩
      exact .cons (.nil false) hc (ih hRest)
  | case10 quoted c s hEscape hQuote hOutside hc hPlus hAngle ih =>
      have hQuoted : quoted = false := by simpa using hOutside
      subst hQuoted
      rcases Result.map_eq_ok_iff.1 h with ⟨segments', hRest, rfl⟩
      have hInactive : isActive c = false := by
        simp only [Bool.or_eq_true, decide_eq_true_eq, not_or] at hc hAngle
        simp [isActive, hEscape, hQuote, hc.1, hc.2, hPlus, hAngle.1, hAngle.2]
      exact .extend (.outside hInactive (.nil false)) (ih hRest)

theorem extend_extend (p q : Text) (segments : List Text) :
    Segment.extend p (Segment.extend q segments) = Segment.extend (p ++ q) segments := by
  cases segments with
  | nil => rfl
  | cons s segments => rw [Segment.extend, Segment.extend, Segment.extend, List.append_assoc]

theorem map_extend_map_extend (p q : Text) (r : Except Defect (List Text)) :
    (r.map (Segment.extend q)).map (Segment.extend p) = r.map (Segment.extend (p ++ q)) := by
  cases r with
  | error d => rfl
  | ok segments => exact congrArg Except.ok (extend_extend p q segments)

theorem map_extend_nil (quoted : Bool) (s : Text) :
    (cutFrom quoted s).map (Segment.extend []) = cutFrom quoted s := by
  cases h : cutFrom quoted s with
  | error d =>
      rfl
  | ok segments =>
      cases pieces_of_cutFrom h with
      | last _ => rfl
      | cons _ _ _ => rfl

/-- The cut goes through a piece that spans and takes it into the first segment, also where the
rest has a defect. -/
theorem cutFrom_append {quoted quoted' : Bool} {s : Text} (h : Spans quoted s quoted')
    (rest : Text) : cutFrom quoted (s ++ rest) = (cutFrom quoted' rest).map (extend s) := by
  -- Each step of the cut puts its characters in front of the first segment.
  induction h with
  | nil quoted =>
      exact (map_extend_nil quoted rest).symm
  | @escape c quoted quoted' s _ ih =>
      calc
        cutFrom quoted ('\\' :: c :: (s ++ rest))
            = (cutFrom quoted (s ++ rest)).map (extend ['\\', c]) := cutFrom_escape quoted c _
        _ = ((cutFrom quoted' rest).map (extend s)).map (extend ['\\', c]) := by rw [ih]
        _ = (cutFrom quoted' rest).map (extend ('\\' :: c :: s)) := map_extend_map_extend _ _ _
  | @quote quoted quoted' s _ ih =>
      calc
        cutFrom quoted ('"' :: (s ++ rest))
            = (cutFrom (!quoted) (s ++ rest)).map (extend ['"']) := cutFrom_quote quoted _
        _ = ((cutFrom quoted' rest).map (extend s)).map (extend ['"']) := by rw [ih]
        _ = (cutFrom quoted' rest).map (extend ('"' :: s)) := map_extend_map_extend _ _ _
  | @inside c quoted' s hEscape hQuote _ ih =>
      calc
        cutFrom true (c :: (s ++ rest))
            = (cutFrom true (s ++ rest)).map (extend [c]) := cutFrom_inside hEscape hQuote _
        _ = ((cutFrom quoted' rest).map (extend s)).map (extend [c]) := by rw [ih]
        _ = (cutFrom quoted' rest).map (extend (c :: s)) := map_extend_map_extend _ _ _
  | @outside c quoted' s hc _ ih =>
      calc
        cutFrom false (c :: (s ++ rest))
            = (cutFrom false (s ++ rest)).map (extend [c]) := cutFrom_outside hc _
        _ = ((cutFrom quoted' rest).map (extend s)).map (extend [c]) := by rw [ih]
        _ = (cutFrom quoted' rest).map (extend (c :: s)) := map_extend_map_extend _ _ _

theorem cutFrom_append_eq_error {quoted quoted' : Bool} {s rest : Text} {d : Defect}
    (h : Spans quoted s quoted') (hRest : cutFrom quoted' rest = .error d) :
    cutFrom quoted (s ++ rest) = .error d := by
  rw [cutFrom_append h, hRest]
  rfl

/-- A separator ends the piece in front of it, also where the rest has a defect. -/
theorem cutFrom_append_separator {quoted : Bool} {s : Text} (h : Spans quoted s false) {c : Char}
    (hc : isSeparator c) (rest : Text) :
    cutFrom quoted (s ++ c :: rest) = (cutFrom false rest).map (s :: ·) := by
  rw [cutFrom_append h, cutFrom_separator hc]
  cases cutFrom false rest with
  | error d => rfl
  | ok segments => simp only [Except.map, extend, List.append_nil]

theorem Pieces.cutFrom_append {quoted : Bool} {s : Text} {segments : List Text}
    (h : Pieces quoted s segments) {c : Char} (hc : isSeparator c) (rest : Text) :
    cutFrom quoted (s ++ c :: rest) = (cutFrom false rest).map (segments ++ ·) := by
  induction h with
  | last hs =>
      exact cutFrom_append_separator hs hc rest
  | cons hs hc' _ ih =>
      rw [List.append_assoc, List.cons_append, cutFrom_append_separator hs hc', ih]
      cases cutFrom false rest with
      | error d => rfl
      | ok segments' => rfl

theorem Pieces.cutFrom_append_eq_error {quoted : Bool} {s rest : Text} {segments : List Text}
    {d : Defect} (h : Pieces quoted s segments) (hRest : cutFrom false rest = .error d) :
    cutFrom quoted (s ++ rest) = .error d := by
  induction h with
  | last hs =>
      exact Segment.cutFrom_append_eq_error hs hRest
  | cons hs hc _ ih =>
      rw [List.append_assoc, List.cons_append, cutFrom_append_separator hs hc, ih]
      rfl

theorem cutFrom_of_pieces {quoted : Bool} {s : Text} {segments : List Text}
    (h : Pieces quoted s segments) : cutFrom quoted s = .ok segments := by
  induction h with
  | last hs =>
      have hEnd := cutFrom_append hs []
      rw [List.append_nil] at hEnd
      rw [hEnd, cutFrom, if_neg (by decide), Except.map, extend, List.append_nil]
  | cons hs hc _ ih =>
      rw [cutFrom_append_separator hs hc, ih]
      rfl

theorem cutFrom_eq_ok_iff {quoted : Bool} {s : Text} {segments : List Text} :
    cutFrom quoted s = .ok segments ↔ Pieces quoted s segments :=
  ⟨pieces_of_cutFrom, cutFrom_of_pieces⟩

/-! ## Segments in another order -/

/-- The segments of a text can be put together in any order. -/
theorem cut_intercalate {s : Text} {segments segments' : List Text} (h : cut s = .ok segments)
    (hPerm : segments.Perm segments') : cut ([','].intercalate segments') = .ok segments' := by
  rw [cut] at h
  split at h
  · rcases Except.ok.inj h with rfl
    rcases hPerm.nil_eq with rfl
    rfl
  · rename_i hPadding
    have hPieces := pieces_of_cutFrom h
    cases segments' with
    | nil =>
        rw [hPerm.eq_nil] at hPieces
        cases hPieces
    | cons t ts =>
        have hJoined : Pieces false ([','].intercalate (t :: ts)) (t :: ts) := by
          have hSpans : ∀ u ∈ t :: ts, Spans false u false := by
            intro u hu
            exact hPieces.spans rfl (hPerm.mem_iff.2 hu)
          simpa using pieces_intercalate (.nil false) hSpans
        have hText : ¬ ([','].intercalate (t :: ts)).all Text.isPadding := by
          cases ts with
          | nil =>
              -- There is one segment, which is the whole text in either order.
              rw [hPerm.eq_singleton] at hPieces
              cases hPieces with
              | last _ =>
                  rw [List.intercalate_singleton]
                  exact hPadding
              | cons _ _ hRest =>
                  cases hRest
          | cons u us =>
              intro hAll
              have hComma : ',' ∈ [','].intercalate (t :: u :: us) := by
                rw [List.intercalate_cons_cons]
                simp
              exact absurd (List.all_eq_true.1 hAll ',' hComma) (by decide)
        rw [cut, if_neg hText]
        exact cutFrom_of_pieces hJoined

end Segment
end MemberNames
