import MemberNames.Proofs.Rdn.AttributeType
import MemberNames.Proofs.Rdn.Builder
import MemberNames.Proofs.Text.Hex

/-!
# Texts that are cut at offsets

A reader that cuts segments, labels or pairs of hex digits out of octets has one more way to fail
than one that reads characters: an offset that is no boundary. It never fails in this way, because
it does what the reader of characters does. For segments the invariant is where the reader stands:
the text in front of the segment and the part of the segment that has been read have the sizes that
are counted.

* `Segment.cutOctets_eq`: the segments of a text
* `Segment.Stands`, `Segment.Cursor.run_eq`: the invariant, and what it leads to
* `Attribute.withoutLabelOctets_eq`: the label of a dotted identifier
* `Value.readHexOctets_eq`: the octets of a hex value
* `Rdn.cuts_at_boundaries`: these three, and the values that are built in octets
-/

namespace MemberNames

/-! ## Segments -/

namespace Segment

/-- Between what has been read of a segment and the rest of the text: where the segment starts, and
at which offset the rest does. -/
structure Stands (whole : Octets) (front segment rest : Text) (start offset : Nat) : Prop where
  whole_eq : whole = Utf8.encode (front ++ segment ++ rest)
  start_eq : start = Utf8.size front
  offset_eq : offset = Utf8.size front + Utf8.size segment

namespace Stands

variable {whole : Octets} {front segment rest : Text} {start offset : Nat} {c : Char}

theorem init (s : Text) : Stands (Utf8.encode s) [] [] s 0 0 :=
  ⟨rfl, rfl, rfl⟩

/-- The next character belongs to the segment. -/
theorem extend (h : Stands whole front segment (c :: rest) start offset) :
    Stands whole front (segment ++ [c]) rest start (offset + (Utf8.encodeChar c).length) where
  whole_eq := by
    rw [h.whole_eq]
    simp
  start_eq := h.start_eq
  offset_eq := by
    rw [h.offset_eq]
    simp [Utf8.size, Nat.add_assoc]

/-- The next character ends the segment. -/
theorem next (h : Stands whole front segment (c :: rest) start offset) :
    Stands whole (front ++ segment ++ [c]) [] rest (offset + (Utf8.encodeChar c).length)
      (offset + (Utf8.encodeChar c).length) where
  whole_eq := by
    rw [h.whole_eq]
    simp
  start_eq := by
    rw [h.offset_eq]
    simp [Utf8.size, Nat.add_assoc]
  offset_eq := by
    rw [h.offset_eq]
    simp [Utf8.size, Nat.add_assoc]

theorem slice (h : Stands whole front segment rest start offset) :
    SliceError.slice (ε := Defect) whole start offset = .ok (Utf8.encode segment) := by
  rw [h.whole_eq, h.start_eq, h.offset_eq, SliceError.slice_encode]

theorem slice_length (h : Stands whole front segment [] start offset) :
    SliceError.slice (ε := Defect) whole start whole.length = .ok (Utf8.encode segment) := by
  have hEnd : offset = whole.length := by
    rw [h.offset_eq, h.whole_eq]
    simp [Utf8.size]
  rw [← hEnd]
  exact h.slice

end Stands

/-- The segments that have been read, with what the cut of the rest adds to them and to the segment
that is being read. -/
def resume (segments : List Octets) (segment : Text) (r : Except Defect (List Text)) :
    Except (SliceError Defect) (List Octets) :=
  SliceError.lift ((r.map (extend segment)).map fun later => segments ++ later.map Utf8.encode)

theorem resume_extend (segments : List Octets) (segment piece : Text)
    (r : Except Defect (List Text)) :
    resume segments segment (r.map (extend piece)) = resume segments (segment ++ piece) r := by
  rw [resume, map_extend_map_extend, resume]

theorem resume_separator (segments : List Octets) (segment s : Text) :
    resume segments segment ((cutFrom false s).map ([] :: ·)) =
      resume (segments ++ [Utf8.encode segment]) [] (cutFrom false s) := by
  rw [resume, resume, map_extend_nil]
  cases cutFrom false s with
  | error d => rfl
  | ok later => simp [Except.map, extend]

namespace Cursor

theorem run_of_step {whole : Octets} {cursor cursor' : Cursor} {offset : Nat} {c : Char}
    (h : cursor.step whole offset c = .ok cursor') (s : Text) :
    cursor.run whole offset (c :: s) =
      cursor'.run whole (offset + (Utf8.encodeChar c).length) s := by
  rw [run, h, Result.ok_bind]

/-- From where it stands, the reader finds what the cut of the rest finds. -/
theorem run_eq {whole : Octets} {front segment rest : Text} {start offset : Nat} {quoted : Bool}
    {segments : List Octets} (h : Stands whole front segment rest start offset) :
    run whole ⟨start, quoted, false, segments⟩ offset rest =
      resume segments segment (cutFrom quoted rest) := by
  fun_induction cutFrom quoted rest generalizing front segment start offset segments with
  | case1 =>
      rfl
  | case2 quoted hOutside =>
      rw [run, finish, if_neg (by simp), if_neg hOutside, h.slice_length]
      simp [resume, extend, Except.map]
  -- A backslash is read alone, and it is at the end where no character follows.
  | case3 quoted =>
      rfl
  | case4 quoted d s ih =>
      have hEscape : step whole ⟨start, quoted, false, segments⟩ offset '\\' =
          .ok ⟨start, quoted, true, segments⟩ := rfl
      have hEscaped : ∀ i, step whole ⟨start, quoted, true, segments⟩ i d =
          .ok ⟨start, quoted, false, segments⟩ := fun _ => rfl
      rw [run_of_step hEscape, run_of_step (hEscaped _), ih h.extend.extend, resume_extend,
        List.append_assoc]
      rfl
  | case5 quoted s hNe ih =>
      have hQuote : step whole ⟨start, quoted, false, segments⟩ offset '"' =
          .ok ⟨start, !quoted, false, segments⟩ := rfl
      rw [run_of_step hQuote, ih h.extend, resume_extend]
  | case6 c s hEscape hQuote ih =>
      have hInside : step whole ⟨start, true, false, segments⟩ offset c =
          .ok ⟨start, true, false, segments⟩ := by
        simp [step, hEscape, hQuote]
      rw [run_of_step hInside, ih h.extend, resume_extend]
  | case7 quoted c s hEscape hQuote hOutside hc ih =>
      have hQuoted : quoted = false := by simpa using hOutside
      subst hQuoted
      have hSeparator : step whole ⟨start, false, false, segments⟩ offset c =
          .ok ⟨offset + (Utf8.encodeChar c).length, false, false,
            segments ++ [Utf8.encode segment]⟩ := by
        simp only [step, hEscape, hQuote, hc, if_true, if_false, Bool.false_eq_true, h.slice]
        rfl
      rw [run_of_step hSeparator, ih h.next, resume_separator]
  | case8 quoted s hOutside =>
      have hQuoted : quoted = false := by simpa using hOutside
      subst hQuoted
      rfl
  | case9 quoted c s hEscape hQuote hOutside hc hPlus hAngle =>
      have hQuoted : quoted = false := by simpa using hOutside
      subst hQuoted
      have hRefused : step whole ⟨start, false, false, segments⟩ offset c =
          .error (.cause (.unescapedOutsideQuotes c)) := by
        simp only [step, hEscape, hQuote, hc, hPlus, hAngle, if_true, if_false, Bool.false_eq_true]
      rw [run, hRefused]
      rfl
  | case10 quoted c s hEscape hQuote hOutside hc hPlus hAngle ih =>
      have hQuoted : quoted = false := by simpa using hOutside
      subst hQuoted
      have hOther : step whole ⟨start, false, false, segments⟩ offset c =
          .ok ⟨start, false, false, segments⟩ := by
        simp only [step, hEscape, hQuote, hc, hPlus, hAngle, if_false, Bool.false_eq_true]
      rw [run_of_step hOther, ih h.extend, resume_extend]

end Cursor

theorem cutOctets_eq (s : Text) :
    cutOctets s = SliceError.lift ((cut s).map (·.map Utf8.encode)) := by
  rw [cutOctets, cut]
  by_cases hPadding : s.all Text.isPadding
  · rw [if_pos hPadding, if_pos hPadding]
    rfl
  · rw [if_neg hPadding, if_neg hPadding, Cursor.run_eq (.init s), resume, map_extend_nil]
    rfl

end Segment

/-! ## Labels -/

namespace Attribute

theorem map_lowerOctet_encodeChar (c : Char) :
    (Utf8.encodeChar c).map lowerOctet = Utf8.encodeChar c.toLower := by
  rcases Utf8.encodeChar_cases c with ⟨hLt, hOctet⟩ | ⟨x, y, rest, hOctets, hAbove⟩
  · have hLower : c.toLower.toNat < 0x80 := by
      rw [Hex.toNat_toLower]
      split <;> omega
    have hValue : (UInt8.ofNat c.toNat).toNat = c.toNat := Utf8.toNat_ofNat_of_lt (by omega)
    have hSingle : Utf8.encodeChar c.toLower = [UInt8.ofNat c.toLower.toNat] := if_pos hLower
    rw [hOctet, hSingle, List.map_singleton, lowerOctet, hValue, Hex.toNat_toLower]
    split <;> rfl
  -- Beyond the ASCII range neither the character nor its octets have a case.
  · have hx : 0x80 ≤ x.toNat := hAbove x (by rw [hOctets]; exact List.mem_cons_self)
    have hHigh : 0x80 ≤ c.toNat := by
      refine Nat.le_of_not_lt fun hLt => ?_
      have hOctet : Utf8.encodeChar c = [UInt8.ofNat c.toNat] := if_pos hLt
      rw [hOctet] at hOctets
      cases hOctets
    have hSame : c.toLower = c := by
      rw [← Char.toNat_inj, Hex.toNat_toLower, if_neg (by omega)]
    rw [hSame]
    refine List.map_congr_left (g := id) (fun b hb => ?_) |>.trans (List.map_id _)
    have hb := hAbove b hb
    exact if_neg (by omega)

theorem map_lowerOctet_encode (s : Text) :
    (Utf8.encode s).map lowerOctet = Utf8.encode (Text.lower s) := by
  induction s with
  | nil =>
      rfl
  | cons c s ih =>
      rw [Utf8.encode_cons, List.map_append, map_lowerOctet_encodeChar, ih, Text.lower, Text.lower,
        List.map_cons, Utf8.encode_cons]

/-- Octets are a label exactly if their characters are. -/
theorem map_lowerOctet_eq_iff {s : Text} :
    (Utf8.encode s).map lowerOctet = (Utf8.encode ['O', 'I', 'D', '.']).map lowerOctet ↔
      AttributeType.IsLabel s := by
  rw [map_lowerOctet_encode, map_lowerOctet_encode]
  constructor
  · exact Utf8.encode_injective
  · exact congrArg Utf8.encode

theorem size_of_isLabel {label : Text} (h : AttributeType.IsLabel label) :
    Utf8.size label = 4 := by
  have hLower := congrArg List.length (map_lowerOctet_eq_iff.2 h)
  rw [List.length_map, List.length_map] at hLower
  exact hLower

theorem slice?_label_append {label : Text} (h : AttributeType.IsLabel label) (s : Text) :
    Utf8.slice? (Utf8.encode (label ++ s)) 0 4 = some (Utf8.encode label) := by
  rw [← size_of_isLabel h]
  exact Utf8.slice?_encode_zero label s

/-- A token that begins with a label is cut behind it. -/
theorem withoutLabelOctets_append {label : Text} (h : AttributeType.IsLabel label) (s : Text) :
    withoutLabelOctets (Utf8.encode (label ++ s)) = .ok (Utf8.encode s) := by
  simp only [withoutLabelOctets, slice?_label_append h, map_lowerOctet_eq_iff.2 h, if_true]
  rw [← size_of_isLabel h]
  exact SliceError.slice_encode_length label s

/-- Any other token is left as it is, whether it can be cut there or not. -/
theorem withoutLabelOctets_of_forall {token : Text}
    (h : ∀ label s, token = label ++ s → ¬ AttributeType.IsLabel label) :
    withoutLabelOctets (Utf8.encode token) = .ok (Utf8.encode token) := by
  rw [withoutLabelOctets]
  split
  · rename_i octets hSlice
    rcases Utf8.exists_of_slice?_zero hSlice with ⟨label, s, hToken, rfl⟩
    rw [if_neg fun hLabel => h label s hToken (map_lowerOctet_eq_iff.1 hLabel)]
  · rfl

theorem withoutLabelOctets_eq (token : Text) :
    withoutLabelOctets (Utf8.encode token) = .ok (Utf8.encode (withoutOidLabel token)) := by
  by_cases hLabel : ∃ label s, token = label ++ s ∧ AttributeType.IsLabel label
  · rcases hLabel with ⟨label, s, rfl, hLabel⟩
    rw [withoutLabelOctets_append hLabel, AttributeType.withoutOidLabel_append hLabel]
  · have hNone : ∀ label s, token = label ++ s → ¬ AttributeType.IsLabel label :=
      fun label s hToken h => hLabel ⟨label, s, hToken, h⟩
    rw [withoutLabelOctets_of_forall hNone]
    rcases AttributeType.withoutOidLabel_cases token with hSame | ⟨label, h, hToken⟩
    · rw [hSame]
    · exact absurd h (hNone label _ hToken)

-- Four octets can end inside a character.
example :
    withoutLabelOctets (Utf8.encode ['O', 'I', 'D', 'é']) =
      .ok (Utf8.encode ['O', 'I', 'D', 'é']) := by
  decide

end Attribute

/-! ## Hex values -/

namespace Value

theorem size_of_octet? {high low : Char} {b : UInt8} (h : Hex.octet? high low = some b) :
    Utf8.size [high, low] = 2 :=
  Utf8.size_eq_length (Hex.toNat_lt_of_isDigit (Hex.isDigit_of_octet? h))

theorem pairOctet?_encode {high low : Char} {b : UInt8} (h : Hex.octet? high low = some b) :
    pairOctet? (Utf8.encode [high, low]) = some b := by
  -- A digit is no sign.
  have hSign : high ≠ '+' := by
    rintro rfl
    cases Hex.isDigit_of_octet? h '+' List.mem_cons_self
  rw [pairOctet?, Utf8.map_ofUInt8_encode (Hex.toNat_lt_of_isDigit (Hex.isDigit_of_octet? h))]
  exact (if_neg hSign).trans h

theorem octetAt_encode {high low : Char} {b : UInt8} (h : Hex.octet? high low = some b)
    (before after : Text) :
    octetAt (Utf8.encode (before ++ [high, low] ++ after)) (Utf8.size before) = .ok b := by
  have hSlice := SliceError.slice_encode (ε := Defect) before [high, low] after
  rw [size_of_octet? h] at hSlice
  rw [octetAt, hSlice, Result.ok_bind, pairOctet?_encode h]

/-- From an offset on, the pairs are the octets that the digits there spell. -/
theorem mapM_octetAt {digits : Text} {octets : Octets} (h : Hex.decode? digits = some octets)
    (before : Text) :
    (List.range' (Utf8.size before) (digits.length / 2) 2).mapM
      (octetAt (Utf8.encode (before ++ digits))) = .ok octets := by
  fun_induction Hex.decode? digits generalizing before octets with
  | case1 =>
      cases h
      rfl
  | case2 c =>
      cases h
  | case3 high low s ih =>
      simp only [Option.bind_eq_bind, Option.bind_eq_some_iff, Option.map_eq_some_iff] at h
      rcases h with ⟨b, hb, bs, hbs, rfl⟩
      have hText : before ++ high :: low :: s = before ++ [high, low] ++ s := by
        simp
      have hCount : (high :: low :: s).length / 2 = s.length / 2 + 1 := by
        rw [List.length_cons, List.length_cons]
        omega
      -- The rest of the digits stands behind this pair.
      have hRest := ih hbs (before ++ [high, low])
      rw [Utf8.size_append, size_of_octet? hb] at hRest
      rw [hText, hCount, List.range'_succ, List.mapM_cons, octetAt_encode hb, Result.ok_bind,
        hRest, Result.ok_bind]
      rfl

theorem readHexOctets_eq (digits : Text) :
    readHexOctets digits = SliceError.lift (readHex digits) := by
  simp only [readHexOctets, readHex]
  by_cases hDigits : digits.all Hex.isDigit
  · have hLength : (Utf8.encode digits).length = digits.length :=
      Utf8.size_eq_length (Hex.toNat_lt_of_isDigit (List.all_eq_true.1 hDigits))
    have hEmpty : (Utf8.encode digits).isEmpty = digits.isEmpty := by
      rw [Bool.eq_iff_iff, List.isEmpty_iff_length_eq_zero, List.isEmpty_iff_length_eq_zero,
        hLength]
    rw [hLength, hEmpty]
    split
    · rfl
    · rename_i hChecked
      have hEven : digits.length % 2 = 0 := by
        simp only [Bool.or_eq_true, bne_iff_ne, not_or, not_not] at hChecked
        exact hChecked.1.2
      have hCount : (digits.length + 1) / 2 = digits.length / 2 := by omega
      rcases Option.isSome_iff_exists.1 (Hex.decode?_isSome_iff.2 ⟨hEven, hDigits⟩) with
        ⟨octets, hOctets⟩
      have hPairs : (List.range' 0 (digits.length / 2) 2).mapM (octetAt (Utf8.encode digits)) =
          .ok octets := mapM_octetAt hOctets []
      simp only [hCount, hPairs, Result.ok_bind, hOctets]
      cases Der.Element.ofOctets octets with
      | error e => rfl
      | ok e => rfl
  -- Without digits both refuse the text, whatever its length is.
  · rw [Bool.not_eq_true] at hDigits
    simp only [hDigits, Bool.not_false, Bool.or_true, if_true]
    rfl

end Value

/-! ## Offsets and boundaries -/

namespace Rdn

open Value

/-- Segments, labels, hex digits and values are never cut anywhere but at a boundary, and what is
cut out is what the readers of characters find. The number that the builder keeps is the size of
the text up to the last character that trimming must leave alone, so that trimming removes the loose
characters at the end and nothing else. -/
theorem cuts_at_boundaries :
    (∀ s : Text,
      Segment.cutOctets s = SliceError.lift ((Segment.cut s).map (·.map Utf8.encode)) ∧
        Segment.cutOctets s ≠ .error .badOffset) ∧
    (∀ token : Text,
      Attribute.withoutLabelOctets (Utf8.encode token) =
        .ok (Utf8.encode (Attribute.withoutOidLabel token))) ∧
    (∀ digits : Text,
      readHexOctets digits = SliceError.lift (readHex digits) ∧
        readHexOctets digits ≠ .error .badOffset) ∧
    (∀ (trim : Bool) (as : List Addition),
      Builder.build trim as = SliceError.lift ((Buffer.build trim as).map Utf8.encode) ∧
        Builder.build trim as ≠ .error .badOffset) ∧
    (∀ (as : List Addition) (b : Builder),
      Builder.empty.addAll as = .ok b ↔
        ∃ cs, Brings as b.pending cs ∧ b.out = Utf8.encode (cs.map Prod.fst) ∧
          b.significant = Utf8.size (keptPart cs) ∧ Utf8.isBoundary b.out b.significant) ∧
    (∀ (trim : Bool) (as : List Addition) (v : Octets),
      Builder.build trim as = .ok v ↔
        ∃ t cs, Brings as (Utf8.encode t) cs ∧
          v = Utf8.encode (if trim then keptPart (cs ++ escaped t) else cs.map Prod.fst ++ t)) := by
  refine ⟨fun s => ⟨Segment.cutOctets_eq s, ?_⟩, Attribute.withoutLabelOctets_eq,
    fun digits => ⟨readHexOctets_eq digits, ?_⟩, fun trim as => ⟨Buffer.build_octets trim as, ?_⟩,
    fun as b => ?_, fun trim as v => Builder.build_eq_ok_iff⟩
  · rw [Segment.cutOctets_eq]
    exact SliceError.lift_ne_badOffset _
  · rw [readHexOctets_eq]
    exact SliceError.lift_ne_badOffset _
  · rw [Buffer.build_octets]
    exact SliceError.lift_ne_badOffset _
  · rw [Builder.addAll_eq_ok_iff]
    constructor
    · rintro ⟨pending, cs, hBrings, rfl⟩
      exact ⟨cs, hBrings, rfl, rfl, Builder.isBoundary_ofMarked cs pending⟩
    · rintro ⟨cs, hBrings, hOut, hSignificant, -⟩
      refine ⟨b.pending, cs, hBrings, ?_⟩
      rw [Builder.ofMarked, ← hOut, ← hSignificant]

end Rdn
end MemberNames
