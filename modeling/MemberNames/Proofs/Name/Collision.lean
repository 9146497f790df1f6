import MemberNames.Proofs.Name.Canonical

/-!
# Names with the same canonical text

A canonical text is cut into one segment for each present attribute, so that it tells which values
have been written. A value that begins and ends with a quote may be written like the value between
its quotes, and no two other values are written alike.

* `Escape.IsQuoted`, `Escape.value_eq_value_iff`: values that are written alike
* `Name.pieces_canonical`: how a canonical text is cut
* `Name.canonical_eq_iff_value`: a canonical text tells what is written of each attribute
* `Name.canonical_eq_iff`: the names with a given canonical text
-/

namespace MemberNames

/-! ## Values -/

namespace Escape

/-- Whether a value is another one between two quotes, which gets the same quotes when written. -/
structure IsQuoted (v w : Text) : Prop where
  eq_quote : v = quote w
  not_isWrapped : ¬ IsWrapped w
  needsQuotes : NeedsQuotes w

theorem IsQuoted.value_eq {v w : Text} (h : IsQuoted v w) : value v = value w := by
  rw [h.eq_quote, value_quote, value_of_needsQuotes h.not_isWrapped h.needsQuotes]

/-- What is written tells the value up to the quotes that it begins and ends with. -/
theorem unwrap_eq_of_value_eq {v w : Text} (h : value v = value w) : unwrap v = unwrap w := by
  have hv := Value.read_of_spells (spells_value v)
  rw [h, Value.read_of_spells (spells_value w)] at hv
  exact (Except.ok.inj hv).symm

theorem isQuoted_of_value_eq {v w : Text} (h : value v = value w) (hv : IsWrapped v)
    (hw : ¬ IsWrapped w) : IsQuoted v w := by
  rcases isWrapped_iff.1 hv with ⟨inner, rfl⟩
  have hSame := unwrap_eq_of_value_eq h
  rw [unwrap_quote, unwrap_of_not_isWrapped hw] at hSame
  subst hSame
  refine ⟨rfl, hw, ?_⟩
  -- Without quotes of its own `inner` would be written as it is, but it has none.
  by_contra hNeeds
  rw [value_quote, value_of_not_needsQuotes hw hNeeds] at h
  exact hw (isWrapped_iff.2 ⟨_, h.symm⟩)

theorem value_eq_value_iff {v w : Text} :
    value v = value w ↔ v = w ∨ IsQuoted v w ∨ IsQuoted w v := by
  constructor
  · intro h
    have hSame := unwrap_eq_of_value_eq h
    by_cases hv : IsWrapped v
    · by_cases hw : IsWrapped w
      · rcases isWrapped_iff.1 hv with ⟨inner, rfl⟩
        rcases isWrapped_iff.1 hw with ⟨inner', rfl⟩
        rw [unwrap_quote, unwrap_quote] at hSame
        exact .inl (congrArg quote hSame)
      · exact .inr (.inl (isQuoted_of_value_eq h hv hw))
    · by_cases hw : IsWrapped w
      · exact .inr (.inr (isQuoted_of_value_eq h.symm hw hv))
      · rw [unwrap_of_not_isWrapped hv, unwrap_of_not_isWrapped hw] at hSame
        exact .inl hSame
  · rintro (rfl | h | h)
    · rfl
    · exact h.value_eq
    · exact h.value_eq.symm

end Escape

/-! ## Segments -/

namespace Name

theorem segment_eq_segment_iff {p q : Attribute × Text} :
    segment p = segment q ↔ p.1 = q.1 ∧ Escape.value p.2 = Escape.value q.2 := by
  have hSplit : ∀ pair : Attribute × Text,
      Text.splitFirst '=' (segment pair) = some (pair.1.keyword, Escape.value pair.2) := by
    intro pair
    refine Text.splitFirst_eq_some_iff.2 ⟨rfl, ?_⟩
    intro hMem
    cases pair.1.denotes_keyword.isTokenChar hMem
  constructor
  · intro h
    have hBoth := hSplit p
    rw [h, hSplit q] at hBoth
    rcases Prod.mk.inj (Option.some.inj hBoth) with ⟨hKeyword, hValue⟩
    have hToken := q.1.ofToken?_keyword
    rw [hKeyword, p.1.ofToken?_keyword] at hToken
    exact ⟨Option.some.inj hToken, hValue.symm⟩
  · rintro ⟨hAttribute, hValue⟩
    rw [segment, segment, hAttribute, hValue]

theorem spans_segment (pair : Attribute × Text) : Segment.Spans false (segment pair) false :=
  (spells_segment (List.forall_mem_nil _) pair).spans

/-- The space behind a comma belongs to the segment that follows it. -/
theorem pieces_canonical {n : Name} {pair : Attribute × Text} {pairs : List (Attribute × Text)}
    (h : n.attributes = pair :: pairs) :
    Segment.Pieces false n.canonical
      (segment pair :: (pairs.map segment).map ([' '] ++ ·)) := by
  have hSpans : ∀ s ∈ (pair :: pairs).map segment, Segment.Spans false s false := by
    intro s hs
    rcases List.mem_map.1 hs with ⟨other, -, rfl⟩
    exact spans_segment other
  have hGap : Segment.Spans false [' '] false := .outside rfl (.nil false)
  have hPieces := Segment.pieces_intercalate hGap hSpans
  have hForm : n.canonical = [',', ' '].intercalate ((pair :: pairs).map segment) := by
    rw [← h]
    rfl
  rw [hForm]
  exact hPieces

theorem map_segment_of_canonical_eq {a b : Name} (h : a.canonical = b.canonical) :
    a.attributes.map segment = b.attributes.map segment := by
  rcases List.exists_cons_of_ne_nil a.attributes_ne_nil with ⟨p, ps, hp⟩
  rcases List.exists_cons_of_ne_nil b.attributes_ne_nil with ⟨q, qs, hq⟩
  have ha := Segment.cutFrom_of_pieces (pieces_canonical hp)
  rw [h, Segment.cutFrom_of_pieces (pieces_canonical hq)] at ha
  rcases List.cons.inj (Except.ok.inj ha) with ⟨hFirst, hRest⟩
  have hGap : Function.Injective ([' '] ++ · : Text → Text) := List.append_right_injective [' ']
  rw [hp, hq, List.map_cons, List.map_cons, hFirst, (hGap.list_map hRest).symm]

/-! ## Names -/

theorem map_value_of_map_segment {a b : Name}
    (h : a.attributes.map segment = b.attributes.map segment) {attr : Attribute} {w : Text}
    (hw : (a.get? attr).map Escape.value = some w) : (b.get? attr).map Escape.value = some w := by
  rcases Option.map_eq_some_iff.1 hw with ⟨v, hv, rfl⟩
  have hMem : segment (attr, v) ∈ b.attributes.map segment := by
    rw [← h]
    exact List.mem_map_of_mem (mem_attributes_iff.2 hv)
  rcases List.mem_map.1 hMem with ⟨⟨attr', v'⟩, hPair, hSame⟩
  rcases segment_eq_segment_iff.1 hSame with ⟨rfl, hValue⟩
  exact Option.map_eq_some_iff.2 ⟨v', mem_attributes_iff.1 hPair, hValue⟩

/-- The canonical text depends on what is written of each attribute only. -/
theorem canonical_eq (n : Name) :
    n.canonical = [',', ' '].intercalate (Attribute.all.filterMap fun attr =>
      ((n.get? attr).map Escape.value).map fun w => attr.keyword ++ '=' :: w) := by
  rw [canonical, attributes, List.map_filterMap]
  simp only [Option.map_map]
  rfl

theorem canonical_eq_iff_value {a b : Name} :
    a.canonical = b.canonical ↔
      ∀ attr, (a.get? attr).map Escape.value = (b.get? attr).map Escape.value := by
  constructor
  · intro h attr
    have hSegments := map_segment_of_canonical_eq h
    apply Option.ext
    intro w
    exact ⟨map_value_of_map_segment hSegments, map_value_of_map_segment hSegments.symm⟩
  · intro h
    rw [canonical_eq, canonical_eq]
    simp only [h]

theorem map_eq_map_iff {f : Text → Text} {o o' : Option Text} :
    o.map f = o'.map f ↔ o.isSome = o'.isSome ∧ ∀ v w, o = some v → o' = some w → f v = f w := by
  cases o <;> cases o' <;> simp

/-- The canonical text tells a name up to the quotes around its values. -/
theorem unwrapped_eq_of_canonical_eq {a b : Name} (h : a.canonical = b.canonical) :
    a.unwrapped = b.unwrapped := by
  apply ext_get?
  intro attr
  rcases map_eq_map_iff.1 (canonical_eq_iff_value.1 h attr) with ⟨hPresent, hValues⟩
  rw [get?_unwrapped, get?_unwrapped, map_eq_map_iff]
  refine ⟨hPresent, ?_⟩
  intro v w hv hw
  exact Escape.unwrap_eq_of_value_eq (hValues v w hv hw)

/-- Names with the same canonical text have the same attributes, each with the same value or with
two values of which one is the other between quotes. Names without values between quotes have
different canonical texts unless they are the same. -/
theorem canonical_eq_iff {a b : Name} :
    (a.canonical = b.canonical ↔
      (∀ attr, (a.get? attr).isSome = (b.get? attr).isSome) ∧
        ∀ attr v w, a.get? attr = some v → b.get? attr = some w →
          v = w ∨ Escape.IsQuoted v w ∨ Escape.IsQuoted w v) ∧
      (a.IsPlain → b.IsPlain → (a.canonical = b.canonical ↔ a = b)) := by
  refine ⟨?_, ?_⟩
  · rw [canonical_eq_iff_value, ← forall_and]
    simp only [map_eq_map_iff, Escape.value_eq_value_iff]
  · intro ha hb
    constructor
    · intro h
      calc
        a = a.unwrapped := (unwrapped_eq_self_iff.2 ha).symm
        _ = b.unwrapped := unwrapped_eq_of_canonical_eq h
        _ = b := unwrapped_eq_self_iff.2 hb
    · rintro rfl
      rfl

/-- Quotes around a value with a comma leave the canonical text as it is; another town does not. -/
theorem canonical_eq_quoted :
    let a : Name := minimal ['A', ',', 'B'] ['K'] ['D', 'E']
    let b : Name := { a with organisation := ['"', 'A', ',', 'B', '"'] }
    let c : Name := { a with locality := ['T'] }
    a.canonical = b.canonical ∧ a.IsPlain ∧ c.IsPlain ∧ a.canonical ≠ c.canonical := by
  intro a b c
  have hQuoted : Escape.IsQuoted b.organisation a.organisation := ⟨rfl, by decide, by decide⟩
  have hSame : a.canonical = b.canonical := by
    refine canonical_eq_iff.1.2 ⟨?_, ?_⟩
    · intro attr
      cases attr <;> rfl
    · intro attr v w hv hw
      cases attr with
      | organisation =>
          cases hv
          cases hw
          exact .inr (.inr hQuoted)
      | commonName | organisationUnit | locality | state | country =>
          exact .inl (Option.some.inj (hv.symm.trans hw))
  have ha : a.IsPlain := by decide
  have hc : c.IsPlain := by decide
  refine ⟨hSame, ha, hc, ?_⟩
  intro h
  exact absurd ((canonical_eq_iff.2 ha hc).1 h) (by decide)

end Name
end MemberNames
