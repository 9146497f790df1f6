import MemberNames.Proofs.Rdn.Decompose

/-!
# What a text passes on

The characters of a value are characters of its text, except those that the text spells by octets:
in escapes, which begin with a backslash, or behind a number sign. What a defect quotes is always a
part of the text.

* `Value.Spells.mem`, `Rdn.mem_of_decompose`: the characters of values
* `AttributeType.Denotes.isTokenChar_type`: the characters of types
* `Defect.quoted`, `Rdn.mem_of_decompose_eq_error`: what defects quote
-/

namespace MemberNames

/-! ## Values -/

namespace Lexeme

theorem denotes_map_char_iff {s v : Text} : Denotes (s.map .char) v ↔ v = s := by
  induction s generalizing v with
  | nil =>
      exact denotes_nil_iff
  | cons c s ih =>
      rw [List.map_cons, denotes_cons_iff (c := c) rfl]
      simp only [ih, exists_eq_left]

/-- A text without a backslash denotes itself. -/
theorem Written.mem {s v : Text} {ls : List Lexeme} (hs : Written s ls) (hv : Denotes ls v)
    {c : Char} (hc : c ∈ v) : c ∈ s ∨ '\\' ∈ s := by
  by_cases hEscape : '\\' ∈ s
  · exact .inr hEscape
  · have hChars : Written s (s.map .char) := written_map_char fun d hd hSame =>
      hEscape (hSame ▸ hd)
    rw [← list_eq_of_written hs, list_eq_of_written hChars, denotes_map_char_iff] at hv
    exact .inl (hv ▸ hc)

end Lexeme

/-- Only a backslash or a number sign brings characters into a value that its text does not hold. -/
theorem Value.Spells.mem {raw v : Text} (h : Spells raw v) {c : Char} (hc : c ∈ v) :
    c ∈ raw ∨ '\\' ∈ raw ∨ '#' ∈ raw := by
  cases h with
  | @quoted lead s trail v units _ _ hWritten _ hDenotes =>
      have hBody : s ⊆ lead ++ '"' :: (s ++ '"' :: trail) := fun d hd =>
        List.mem_append_right _ (List.mem_cons_of_mem _ (List.mem_append_left _ hd))
      exact (hWritten.mem hDenotes hc).imp (hBody ·) fun hEscape => .inl (hBody hEscape)
  | hex _ _ _ _ _ =>
      exact .inr (.inr (List.mem_append_right _ List.mem_cons_self))
  | @unquoted lead s trail v units _ _ hWritten _ _ _ hDenotes =>
      have hBody : s ⊆ lead ++ (s ++ trail) := fun d hd =>
        List.mem_append_right _ (List.mem_append_left _ hd)
      exact (hWritten.mem hDenotes hc).imp (hBody ·) fun hEscape => .inl (hBody hEscape)

/-! ## Types -/

namespace AttributeType

theorem isTokenChar_toUpper {c : Char} (h : isTokenChar c) : isTokenChar c.toUpper :=
  isTokenChar_induction (fun d => isTokenChar d → isTokenChar d.toUpper) (by decide) h h

theorem Denotes.isTokenChar_type {token t : Text} (h : Denotes token t) {c : Char}
    (hc : c ∈ t) : AttributeType.isTokenChar c := by
  have hToken : ∀ d ∈ token, AttributeType.isTokenChar d := fun d hd => h.isTokenChar hd
  cases h with
  | keyword _ _ =>
      rcases List.mem_map.1 hc with ⟨d, hd, rfl⟩
      exact isTokenChar_toUpper (hToken d hd)
  | dotted _ =>
      exact hToken c hc
  | labelled _ _ =>
      exact hToken c (List.mem_append_right _ hc)

end AttributeType

/-! ## Pairs -/

namespace Rdn

theorem Spells.mem_value {segment : Text} {r : Rdn} (h : Spells segment r) {c : Char}
    (hc : c ∈ r.value) : c ∈ segment ∨ '\\' ∈ segment ∨ '#' ∈ segment := by
  cases h with
  | @intro lead token trail raw r _ _ _ hSpells =>
      have hRaw : raw ⊆ lead ++ token ++ trail ++ '=' :: raw := fun d hd =>
        List.mem_append_right _ (List.mem_cons_of_mem _ hd)
      exact (hSpells.mem hc).imp (hRaw ·) (Or.imp (hRaw ·) (hRaw ·))

theorem Spells.isTokenChar {segment : Text} {r : Rdn} (h : Spells segment r) {c : Char}
    (hc : c ∈ r.attributeType) : AttributeType.isTokenChar c := by
  cases h with
  | intro _ _ hDenotes _ => exact hDenotes.isTokenChar_type hc

/-- Each pair is spelled by some segment, all of whose characters are the text's. -/
theorem Lists.exists_segment {s : Text} {rdns : List Rdn} (h : Lists s rdns) {r : Rdn}
    (hr : r ∈ rdns) : ∃ segment ⊆ s, Spells segment r := by
  induction h with
  | last hSpells =>
      rcases List.mem_singleton.1 hr with rfl
      exact ⟨_, List.Subset.refl _, hSpells⟩
  | cons hSpells _ _ ih =>
      rcases List.mem_cons.1 hr with rfl | hMem
      · exact ⟨_, List.subset_append_left _ _, hSpells⟩
      · rcases ih hMem with ⟨segment, hSegment, hSpells⟩
        exact ⟨segment, fun d hd => List.mem_append_right _ (List.mem_cons_of_mem _ (hSegment hd)),
          hSpells⟩

theorem exists_segment_of_decompose {s : Text} {rdns : List Rdn} (h : decompose s = .ok rdns)
    {r : Rdn} (hr : r ∈ rdns) : ∃ segment ⊆ s, Spells segment r := by
  by_cases hPadding : s.all Text.isPadding
  · rw [decompose, Segment.cut, if_pos hPadding] at h
    rcases Except.ok.inj h with rfl
    cases hr
  · rw [decompose, Segment.cut, if_neg hPadding] at h
    exact (lists_iff.1 h).exists_segment hr

theorem mem_of_decompose {s : Text} {rdns : List Rdn} (h : decompose s = .ok rdns) {r : Rdn}
    (hr : r ∈ rdns) {c : Char} (hc : c ∈ r.value) : c ∈ s ∨ '\\' ∈ s ∨ '#' ∈ s := by
  rcases exists_segment_of_decompose h hr with ⟨segment, hSegment, hSpells⟩
  exact (hSpells.mem_value hc).imp (hSegment ·) (Or.imp (hSegment ·) (hSegment ·))

theorem isTokenChar_of_decompose {s : Text} {rdns : List Rdn} (h : decompose s = .ok rdns)
    {r : Rdn} (hr : r ∈ rdns) {c : Char} (hc : c ∈ r.attributeType) :
    AttributeType.isTokenChar c := by
  rcases exists_segment_of_decompose h hr with ⟨segment, -, hSpells⟩
  exact hSpells.isTokenChar hc

end Rdn

/-! ## Defects -/

/-- The characters that a defect quotes. -/
def Defect.quoted : Defect → Text
  | .unescapedOutsideQuotes c | .unescapedInValue c | .invalidEscape c => [c]
  | .noSeparator segment => segment
  | .invalidType token => token
  | .invalidHexValue digits => digits
  | _ => []

/-- The characters of a lexeme that a defect may quote. -/
def Lexeme.shown : Lexeme → Text
  | .char c | .escaped c => [c]
  | .octet _ => []
  | .faulty d => d.quoted

theorem Lexeme.mem_of_mem_list {s : Text} {l : Lexeme} (h : l ∈ list s) {c : Char}
    (hc : c ∈ l.shown) : c ∈ s := by
  fun_induction list s with
  | case1 =>
      cases h
  | case2 | case3 | case5 =>
      rcases List.mem_singleton.1 h with rfl
      cases hc
  | case4 d high _ e s low _ ih =>
      rcases List.mem_cons.1 h with rfl | hMem
      · cases hc
      · exact List.mem_cons_of_mem _ (List.mem_cons_of_mem _ (List.mem_cons_of_mem _ (ih hMem)))
  | case6 d s _ _ ih =>
      rcases List.mem_cons.1 h with rfl | hMem
      · exact List.mem_cons_of_mem _ (List.mem_singleton.1 hc ▸ List.mem_cons_self)
      · exact List.mem_cons_of_mem _ (List.mem_cons_of_mem _ (ih hMem))
  | case7 d s _ _ =>
      rcases List.mem_singleton.1 h with rfl
      exact List.mem_cons_of_mem _ (List.mem_singleton.1 hc ▸ List.mem_cons_self)
  | case8 d s _ ih =>
      rcases List.mem_cons.1 h with rfl | hMem
      · exact List.mem_singleton.1 hc ▸ List.mem_cons_self
      · exact List.mem_cons_of_mem _ (ih hMem)

theorem Text.trim_subset (p : Char → Bool) (s : Text) : trim p s ⊆ s := fun _ hc =>
  List.dropWhile_subset _ (List.mem_reverse.1 (List.dropWhile_subset _ (List.mem_reverse.1 hc)))

namespace Value

/-- A defect of an unquoted value quotes characters of one of its lexemes. -/
theorem exists_of_readUnquoted {b : Buffer} {ls : List Lexeme} {d : Defect}
    (h : readUnquoted b ls = .error d) {c : Char} (hc : c ∈ d.quoted) :
    ∃ l ∈ ls, c ∈ l.shown := by
  have hOctets : d ≠ .escapesNotUtf8 := by
    rintro rfl
    cases hc
  induction ls generalizing b with
  | nil =>
      exact absurd (Buffer.eq_of_map_flush_eq_error h) hOctets
  | cons l ls ih =>
      -- Either the first lexeme is at fault, or what comes behind it.
      have hTail : ∀ b', readUnquoted b' ls = .error d → ∃ l' ∈ l :: ls, c ∈ l'.shown := by
        intro b' hRest
        rcases ih hRest with ⟨l', hMem, hShown⟩
        exact ⟨l', List.mem_cons_of_mem _ hMem, hShown⟩
      cases l with
      | faulty d' =>
          rcases Except.error.inj h with rfl
          exact ⟨_, List.mem_cons_self, hc⟩
      | octet o =>
          exact hTail _ h
      | escaped c' =>
          rcases Buffer.exists_of_bind h hOctets with ⟨b', hRest⟩
          exact hTail b' hRest
      | char c' =>
          rw [readUnquoted] at h
          split at h
          · cases h
            cases hc
          split at h
          · cases h
            exact ⟨_, List.mem_cons_self, hc⟩
          split at h
          · rcases Buffer.exists_of_bind h hOctets with ⟨b', hRest⟩
            exact hTail b' hRest
          · rcases Buffer.exists_of_bind h hOctets with ⟨b', hRest⟩
            exact hTail b' hRest

theorem exists_of_readQuoted {b : Buffer} {ls : List Lexeme} {d : Defect}
    (h : readQuoted b ls = .error d) {c : Char} (hc : c ∈ d.quoted) :
    ∃ l ∈ ls, c ∈ l.shown := by
  have hOctets : d ≠ .escapesNotUtf8 := by
    rintro rfl
    cases hc
  induction ls generalizing b with
  | nil =>
      cases h
      cases hc
  | cons l ls ih =>
      have hTail : ∀ b', readQuoted b' ls = .error d → ∃ l' ∈ l :: ls, c ∈ l'.shown := by
        intro b' hRest
        rcases ih hRest with ⟨l', hMem, hShown⟩
        exact ⟨l', List.mem_cons_of_mem _ hMem, hShown⟩
      cases l with
      | faulty d' =>
          rcases Except.error.inj h with rfl
          exact ⟨_, List.mem_cons_self, hc⟩
      | octet o =>
          exact hTail _ h
      | escaped c' =>
          rcases Buffer.exists_of_bind h hOctets with ⟨b', hRest⟩
          exact hTail b' hRest
      | char c' =>
          rw [readQuoted] at h
          split at h
          · split at h
            · exact absurd (Buffer.eq_of_map_flush_eq_error h) hOctets
            · cases h
              cases hc
          · rcases Buffer.exists_of_bind h hOctets with ⟨b', hRest⟩
            exact hTail b' hRest

theorem quoted_of_ofElement {e : Der.Element} {d : Defect} (h : ofElement e = .error d) :
    d.quoted = [] := by
  rcases ofElement_eq_error_iff.1 h with ⟨-, rfl⟩ | ⟨-, -, rfl⟩
  · rfl
  · rfl

theorem mem_of_readHex {digits : Text} {d : Defect} (h : readHex digits = .error d) {c : Char}
    (hc : c ∈ d.quoted) : c ∈ digits := by
  have hQuoted : d.quoted ≠ [] := List.ne_nil_of_mem hc
  rw [readHex] at h
  split at h
  · cases h
    exact hc
  split at h
  · cases h
    cases hc
  split at h
  · cases h
    cases hc
  · exact absurd (quoted_of_ofElement h) hQuoted

theorem mem_of_read {raw : Text} {d : Defect} (h : read raw = .error d) {c : Char}
    (hc : c ∈ d.quoted) : c ∈ raw := by
  have hTrimmed : Text.trimStart Text.isPadding raw ⊆ raw := List.dropWhile_subset _
  rw [read] at h
  split at h
  · rename_i s hs
    rcases exists_of_readQuoted h hc with ⟨l, hl, hShown⟩
    exact hTrimmed (hs ▸ List.mem_cons_of_mem _ (Lexeme.mem_of_mem_list hl hShown))
  · rename_i s hs
    have hMem : c ∈ s :=
      List.mem_reverse.1 (List.dropWhile_subset _ (List.mem_reverse.1 (mem_of_readHex h hc)))
    exact hTrimmed (hs ▸ List.mem_cons_of_mem _ hMem)
  · rcases exists_of_readUnquoted h hc with ⟨l, hl, hShown⟩
    exact hTrimmed (Lexeme.mem_of_mem_list hl hShown)

end Value

theorem AttributeType.mem_of_read {raw : Text} {d : Defect} (h : read raw = .error d) {c : Char}
    (hc : c ∈ d.quoted) : c ∈ Text.trim Unicode.isWhiteSpace raw := by
  rcases defect_of_read h with rfl | rfl
  · cases hc
  · exact hc

namespace Segment

theorem mem_of_cutFrom {quoted : Bool} {s : Text} {d : Defect} (h : cutFrom quoted s = .error d)
    {c : Char} (hc : c ∈ d.quoted) : c ∈ s := by
  fun_induction cutFrom quoted s with
  | case1 | case3 | case8 =>
      cases h
      cases hc
  | case2 =>
      cases h
  | case4 quoted c' s ih =>
      exact List.mem_cons_of_mem _ (List.mem_cons_of_mem _ (ih (Result.map_eq_error_iff.1 h)))
  | case5 quoted s _ ih | case6 c' s _ _ ih | case7 quoted c' s _ _ _ _ ih
  | case10 quoted c' s _ _ _ _ _ _ ih =>
      exact List.mem_cons_of_mem _ (ih (Result.map_eq_error_iff.1 h))
  | case9 =>
      cases h
      exact List.mem_singleton.1 hc ▸ List.mem_cons_self

end Segment

namespace Rdn

theorem mem_of_ofSegment {segment : Text} {d : Defect} (h : ofSegment segment = .error d) {c : Char}
    (hc : c ∈ d.quoted) : c ∈ segment := by
  rcases defect_of_ofSegment h with rfl | rfl | ⟨rawType, raw, rfl, hType | ⟨t, -, hValue⟩⟩
  · cases hc
  · exact Text.trim_subset _ _ hc
  · exact List.mem_append_left _ (Text.trim_subset _ _ (AttributeType.mem_of_read hType hc))
  · exact List.mem_append_right _ (List.mem_cons_of_mem _ (Value.mem_of_read hValue hc))

/-- A defect quotes nothing but characters of the text. -/
theorem mem_of_decompose_eq_error {s : Text} {d : Defect} (h : decompose s = .error d) {c : Char}
    (hc : c ∈ d.quoted) : c ∈ s := by
  rcases defect_of_decompose h with hCut | ⟨segments, segment, hPieces, hMem, hSegment⟩
  · exact Segment.mem_of_cutFrom hCut hc
  · exact hPieces.mem hMem (mem_of_ofSegment hSegment hc)

end Rdn
end MemberNames
