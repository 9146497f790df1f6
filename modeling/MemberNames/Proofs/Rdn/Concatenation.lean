import MemberNames.Proofs.Rdn.Decompose

/-!
# Texts joined by a separator

Reading is compositional, defects included. Behind a text that is read, a separator and another text
give the pairs of the first and then whatever the second text gives alone, be it pairs or a defect.
The first pass ends the accepted text outside quotes and outside an escape, so that the separator
cuts there, and padding at the seam belongs to a value's end or to a type's beginning, where it is
not looked at. A text of padding alone has no segment and is no part of this: joined to another text
it gives an empty one, which is a defect.

* `Rdn.Lists.append`: padding behind the last value
* `Rdn.ofSegment_lead_append`: padding in front of a segment, also of a defective one
* `Rdn.decompose_append`: two texts and a separator
-/

namespace MemberNames

/-! ## Padding behind a value -/

namespace Value

theorem IsPadding.append {s t : Text} (hs : IsPadding s) (ht : IsPadding t) : IsPadding (s ++ t) :=
  List.forall_mem_append.2 ⟨hs, ht⟩

/-- Each kind of value may have padding behind it. -/
theorem Spells.append {raw v trail : Text} (h : Spells raw v) (hTrail : IsPadding trail) :
    Spells (raw ++ trail) v := by
  cases h with
  | quoted hLead hOwn hWritten hUnits hDenotes =>
      simpa using Spells.quoted hLead (hOwn.append hTrail) hWritten hUnits hDenotes
  | hex hLead hOwn hTag hShort hDigits =>
      simpa using Spells.hex hLead (hOwn.append hTrail) hTag hShort hDigits
  | unquoted hLead hOwn hWritten hUnits hFirst hLast hDenotes =>
      simpa using Spells.unquoted hLead (hOwn.append hTrail) hWritten hUnits hFirst hLast hDenotes

end Value

namespace Rdn

theorem Spells.append {segment trail : Text} {r : Rdn} (h : Spells segment r)
    (hTrail : Value.IsPadding trail) : Spells (segment ++ trail) r := by
  cases h with
  | intro hLead hWhite hDenotes hSpells =>
      simpa using Spells.intro hLead hWhite hDenotes (hSpells.append hTrail)

theorem Lists.append {s trail : Text} {rdns : List Rdn} (h : Lists s rdns)
    (hTrail : Value.IsPadding trail) : Lists (s ++ trail) rdns := by
  induction h with
  | last hr =>
      exact .last (hr.append hTrail)
  | cons hr hc _ ih =>
      rw [List.append_assoc, List.cons_append]
      exact .cons hr hc ih

/-! ## Padding in front of a segment -/

/-- White space in front of a segment changes neither its pair nor its defect. -/
theorem ofSegment_lead_append {lead : Text} (h : ∀ c ∈ lead, Unicode.isWhiteSpace c)
    (segment : Text) : ofSegment (lead ++ segment) = ofSegment segment := by
  have hBlank : Text.isBlank (lead ++ segment) = Text.isBlank segment := by
    rw [Text.isBlank, List.all_append, List.all_eq_true.2 h, Bool.true_and, Text.isBlank]
  rw [ofSegment, ofSegment, hBlank, Text.splitFirst_append (not_mem_of_isWhiteSpace h),
    Text.trim_append h]
  cases Text.splitFirst '=' segment with
  | none => rfl
  | some parts => simp only [Option.map_some, AttributeType.read, Text.trim_append h]

theorem bind_cutFrom_lead_append {lead : Text} (h : Value.IsPadding lead) (t : Text) :
    (Segment.cutFrom false (lead ++ t) >>= fun segments => segments.mapM ofSegment) =
      (Segment.cutFrom false t >>= fun segments => segments.mapM ofSegment) := by
  rw [Segment.cutFrom_append h.spans]
  cases hCut : Segment.cutFrom false t with
  | error d =>
      rfl
  | ok segments =>
      -- There is a first segment, to which the padding is added.
      cases Segment.pieces_of_cutFrom hCut with
      | last _ => simp [Except.map, Segment.extend, ofSegment_lead_append h.isWhiteSpace]
      | cons _ _ _ => simp [Except.map, Segment.extend, ofSegment_lead_append h.isWhiteSpace]

/-! ## Two texts -/

/-- Behind an accepted text and a separator, another text is read as it is read alone. -/
theorem decompose_append {s t trail lead : Text} {separator : Char} {rdns : List Rdn}
    (hs : ∃ c ∈ s, Text.isPadding c = false) (hRead : decompose s = .ok rdns)
    (ht : ∃ c ∈ t, Text.isPadding c = false) (hTrail : Value.IsPadding trail)
    (hLead : Value.IsPadding lead) (hSeparator : separator = ',' ∨ separator = ';') :
    decompose (s ++ trail ++ separator :: (lead ++ t)) = (decompose t).map (rdns ++ ·) := by
  have hLists : Lists (s ++ trail) rdns := by
    rw [decompose_of_exists hs] at hRead
    exact (lists_iff.1 hRead).append hTrail
  rcases pieces_of_lists hLists with ⟨segments, hPieces, hFront⟩
  have hCut : Segment.isSeparator separator := by
    simpa [Segment.isSeparator] using hSeparator
  have hMem : '=' ∈ s ++ trail ++ separator :: (lead ++ t) :=
    List.mem_append_left _ hLists.mem
  calc
    decompose (s ++ trail ++ separator :: (lead ++ t))
        = ((Segment.cutFrom false (lead ++ t)).map (segments ++ ·) >>= fun segments =>
            segments.mapM ofSegment) := by rw [decompose_of_mem hMem, hPieces.cutFrom_append hCut]
    _ = (Segment.cutFrom false (lead ++ t) >>= fun segments => segments.mapM ofSegment).map
          (rdns ++ ·) := by
        -- A defect of the first pass is one of the second text, since the first text is cut.
        cases Segment.cutFrom false (lead ++ t) with
        | error d => rfl
        | ok rest => exact Result.mapM_append_of_eq_ok (Result.mapM_eq_ok_iff.2 hFront) rest
    _ = (decompose t).map (rdns ++ ·) := by
        rw [bind_cutFrom_lead_append hLead, decompose_of_exists ht]

theorem decompose_append_seams :
    let s : Text := ['O', '=', 'x', '\\', ' ']
    let t : Text := ['L', '=', '"', 'y', '"']
    let u : Text := ['L', '=', '"', 'y']
    decompose (s ++ [' ', '\n'] ++ ',' :: (['\n'] ++ t)) =
        .ok [⟨['O'], ['x', ' ']⟩, ⟨['L'], ['y']⟩] ∧
      decompose (s ++ [' ', '\n'] ++ ';' :: (['\n'] ++ u)) = .error .unbalancedQuotes := by
  intro s t u
  have hs : ∃ c ∈ s, Text.isPadding c = false := ⟨'O', by decide, rfl⟩
  have hRead : decompose s = .ok [⟨['O'], ['x', ' ']⟩] := rfl
  have hTrail : Value.IsPadding [' ', '\n'] := List.all_eq_true.1 rfl
  have hLead : Value.IsPadding ['\n'] := List.all_eq_true.1 rfl
  constructor
  · exact decompose_append (t := t) hs hRead ⟨'L', by decide, rfl⟩ hTrail hLead (.inl rfl)
  · exact decompose_append (t := u) hs hRead ⟨'L', by decide, rfl⟩ hTrail hLead (.inr rfl)

end Rdn
end MemberNames
