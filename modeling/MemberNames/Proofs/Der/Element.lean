import MemberNames.Der.Element
import MemberNames.Proofs.Result
import MemberNames.Proofs.Text.Utf8
import Mathlib.Algebra.Group.Nat.Defs

/-!
# DER elements read back

The reader accepts an element exactly as it is written, and nothing else: each length has one form,
and what follows the element is left alone. A length above the greatest one is never read, neither
that of a content nor that of a whole octet string, so that the laws are about elements of a length
and a tag that can be read.

* `Der.readLength_eq_ok_iff`, `Der.readElement_eq_ok_iff`: the front of an octet string
* `Der.Element.Readable`, `Der.Element.Complete`: the elements that can be read
* `Der.Element.ofOctets_eq_ok_iff`, `Der.elements_eq_ok_iff`: a whole octet string
* `Der.flatMap_toOctets_inj`: octets hold one list of elements, also of elements that are not read
* `Der.Element.length_content_le`, `Der.Element.length_toOctets_le`: an element is a little longer
  than its content
* `Der.Element.length_toOctets_mono`: an element with a longer content is longer
-/

namespace MemberNames
namespace Der

/-! ## Lengths -/

theorem length_bigEndian (count n : Nat) : (bigEndian count n).length = count := by
  induction count generalizing n with
  | zero => rfl
  | succ count ih => rw [bigEndian, List.length_append, ih, List.length_singleton]

theorem ofBigEndian_concat (bs : Octets) (b : UInt8) :
    ofBigEndian (bs ++ [b]) = 256 * ofBigEndian bs + b.toNat := by
  simp only [ofBigEndian, List.foldl_append, List.foldl_cons, List.foldl_nil]

theorem ofBigEndian_bigEndian {count n : Nat} (h : n < 256 ^ count) :
    ofBigEndian (bigEndian count n) = n := by
  induction count generalizing n with
  | zero =>
      have hn : n = 0 := by simpa using h
      subst hn
      rfl
  | succ count ih =>
      have hHigh : n / 256 < 256 ^ count := by
        rw [Nat.pow_succ] at h
        exact Nat.div_lt_of_lt_mul (by omega)
      rw [bigEndian, ofBigEndian_concat, ih hHigh, Utf8.toNat_ofNat_of_lt (by omega)]
      omega

/-- From 128 on, a length is a count of octets and its octets. -/
theorem lengthOctets_eq_count_cons {n : Nat} (h : 0x80 ≤ n) (hMax : n ≤ maxLength) :
    ∃ count, 0 < count ∧ count ≤ 4 ∧ n < 256 ^ count ∧
      lengthOctets n = UInt8.ofNat (0x80 + count) :: bigEndian count n := by
  have hBound : n < 0x10000000 := Nat.lt_succ_of_le hMax
  rw [lengthOctets, if_neg (by omega)]
  split
  · exact ⟨1, by omega, by omega, by omega, rfl⟩
  split
  · exact ⟨2, by omega, by omega, by omega, rfl⟩
  split
  · exact ⟨3, by omega, by omega, by omega, rfl⟩
  · exact ⟨4, by omega, by omega, by omega, rfl⟩

theorem readLength_lengthOctets_append {n : Nat} (h : n ≤ maxLength) (rest : Octets) :
    readLength (lengthOctets n ++ rest) = .ok (n, rest) := by
  by_cases hShort : n < 0x80
  -- The short form is its own octet; the long form is cut off by its count.
  · have hOctet := Utf8.toNat_ofNat_of_lt (n := n) (by omega)
    rw [lengthOctets, if_pos hShort, List.singleton_append, readLength, hOctet, if_pos hShort]
  · rcases lengthOctets_eq_count_cons (by omega) h with ⟨count, hPos, hFour, hFits, hOctets⟩
    have hOctet := Utf8.toNat_ofNat_of_lt (n := 0x80 + count) (by omega)
    have hLength := length_bigEndian count n
    have hTake : (bigEndian count n ++ rest).take count = bigEndian count n :=
      List.take_left' hLength
    have hDrop : (bigEndian count n ++ rest).drop count = rest := List.drop_left' hLength
    have hCount : 0x80 + count - 0x80 = count := by omega
    rw [hOctets, List.cons_append, readLength, hOctet, if_neg (by omega)]
    simp only [hCount, hTake, hDrop, ofBigEndian_bigEndian hFits]
    rw [if_neg (by omega), if_neg (by rw [List.length_append]; omega), if_pos ⟨hOctets, h⟩]

theorem readLength_eq_ok_iff {s rest : Octets} {n : Nat} :
    readLength s = .ok (n, rest) ↔ s = lengthOctets n ++ rest ∧ n ≤ maxLength := by
  constructor
  · intro h
    cases s with
    | nil => cases h
    | cons b s =>
        simp only [readLength] at h
        split at h
        · rename_i hShort
          rcases Prod.mk.inj (Except.ok.inj h) with ⟨rfl, rfl⟩
          have hMax : b.toNat ≤ maxLength := Nat.le_trans (Nat.le_of_lt hShort) (by decide)
          rw [lengthOctets, if_pos hShort, UInt8.ofNat_toNat]
          exact ⟨rfl, hMax⟩
        split at h
        · cases h
        split at h
        · cases h
        split at h
        · rename_i hForm
          -- The reader has compared the octets with the shortest form itself.
          rcases Prod.mk.inj (Except.ok.inj h) with ⟨rfl, rfl⟩
          rw [hForm.1, List.cons_append, List.take_append_drop]
          exact ⟨rfl, hForm.2⟩
        · cases h
  · rintro ⟨rfl, h⟩
    exact readLength_lengthOctets_append h rest

/-! ## Elements -/

/-- Whether an element can be read at the front of octets. -/
structure Element.Readable (e : Element) : Prop where
  known : Tag.isKnown e.tag
  short : e.content.length ≤ maxLength

/-- Whether an element can be read from octets that hold nothing else. -/
structure Element.Complete (e : Element) : Prop where
  known : Tag.isKnown e.tag
  short : e.toOctets.length ≤ maxLength

theorem Element.length_toOctets (e : Element) :
    e.toOctets.length = 1 + (lengthOctets e.content.length).length + e.content.length := by
  rw [Element.toOctets, List.length_append, List.length_cons]
  omega

theorem Element.length_content_le (e : Element) : e.content.length ≤ e.toOctets.length := by
  rw [e.length_toOctets]
  omega

theorem Element.Complete.readable {e : Element} (h : e.Complete) : e.Readable :=
  ⟨h.known, Nat.le_trans e.length_content_le h.short⟩

theorem readElement_eq_ok_iff {s rest : Octets} {e : Element} :
    readElement s = .ok (e, rest) ↔ s = e.toOctets ++ rest ∧ e.Readable := by
  constructor
  · intro h
    cases s with
    | nil => cases h
    | cons tag s =>
        simp only [readElement] at h
        split at h
        · rename_i hKnown
          split at h
          · cases h
          · rename_i n tail hLength
            rcases readLength_eq_ok_iff.1 hLength with ⟨rfl, hMax⟩
            split at h
            · cases h
            · rename_i hEnough
              -- What was read is as long as its length says, since enough octets were there.
              rcases Prod.mk.inj (Except.ok.inj h) with ⟨rfl, rfl⟩
              have hTake : (tail.take n).length = n := by
                rw [List.length_take]
                omega
              refine ⟨?_, hKnown, ?_⟩
              · rw [Element.toOctets, hTake, List.append_assoc, List.cons_append,
                  List.take_append_drop]
              · rw [hTake]
                exact hMax
        · cases h
  · intro h
    rcases h with ⟨rfl, hKnown, hShort⟩
    rw [Element.toOctets, List.append_assoc, List.cons_append, readElement, if_pos hKnown,
      readLength_lengthOctets_append hShort]
    simp only [List.length_append]
    rw [if_neg (by omega), List.take_left, List.drop_left]

theorem Element.ofOctets_eq_ok_iff {s : Octets} {e : Element} :
    Element.ofOctets s = .ok e ↔ s = e.toOctets ∧ e.Complete := by
  have hFront : readElement s = .ok (e, []) ↔ s = e.toOctets ++ [] ∧ e.Readable :=
    readElement_eq_ok_iff
  -- A whole string is a front with nothing behind it.
  have hWhole : Element.ofOctets s = .ok e ↔
      s.length ≤ maxLength ∧ readElement s = .ok (e, []) := by
    rw [Element.ofOctets]
    split
    · rename_i hLong
      simp [Nat.not_le_of_lt hLong]
    · rename_i hShort
      rw [and_iff_right (Nat.le_of_not_lt hShort)]
      split
      · rename_i h
        simp [h]
      · rename_i h
        simp [h]
      · rename_i h
        simp [h]
  rw [hWhole, hFront, List.append_nil]
  constructor
  · rintro ⟨hShort, rfl, hReadable⟩
    exact ⟨rfl, hReadable.known, hShort⟩
  · rintro ⟨rfl, hComplete⟩
    exact ⟨hComplete.short, rfl, hComplete.readable⟩

/-! ## Several elements -/

theorem elements_of_readElement {s rest : Octets} {e : Element}
    (h : readElement s = .ok (e, rest)) : elements s = (elements rest).map (e :: ·) := by
  cases s with
  | nil =>
      cases h
  | cons b s =>
      rw [elements]
      split
      · rename_i hRead
        rw [h] at hRead
        cases hRead
      · rename_i hRead
        rw [h] at hRead
        cases hRead
        rfl

/-- Reading one element after the other undoes writing them one after the other. -/
theorem elements_eq_ok_iff {s : Octets} {es : List Element} :
    elements s = .ok es ↔ s = es.flatMap Element.toOctets ∧ ∀ e ∈ es, e.Readable := by
  constructor
  · intro h
    fun_induction elements s generalizing es with
    | case1 =>
        cases h
        simp
    | case2 b s e hRead =>
        cases h
    | case3 b s e rest hRead hLt ih =>
        rcases Result.map_eq_ok_iff.1 h with ⟨es', hRest, rfl⟩
        rcases readElement_eq_ok_iff.1 hRead with ⟨hFront, hReadable⟩
        rcases ih hRest with ⟨rfl, hAll⟩
        exact ⟨hFront, List.forall_mem_cons.2 ⟨hReadable, hAll⟩⟩
  · intro h
    rcases h with ⟨rfl, hReadable⟩
    -- By induction on what was written; the front of the octets is always the next element.
    induction es with
    | nil =>
        rw [List.flatMap_nil, elements]
    | cons e es ih =>
        rcases List.forall_mem_cons.1 hReadable with ⟨hHead, hTail⟩
        have hFront :
            readElement ((e :: es).flatMap Element.toOctets) =
              .ok (e, es.flatMap Element.toOctets) :=
          readElement_eq_ok_iff.2 ⟨List.flatMap_cons, hHead⟩
        rw [elements_of_readElement hFront, ih hTail]
        rfl

/-! ## One reading -/

/-- Where an element ends is written in front of its content, whatever its tag is. -/
theorem Element.toOctets_append_inj {e e' : Element} {rest rest' : Octets}
    (he : e.content.length ≤ maxLength) (he' : e'.content.length ≤ maxLength)
    (h : e.toOctets ++ rest = e'.toOctets ++ rest') : e = e' ∧ rest = rest' := by
  cases e with
  | mk tag content =>
      cases e' with
      | mk tag' content' =>
          simp only [toOctets, List.cons_append, List.append_assoc, List.cons.injEq] at h
          rcases h with ⟨rfl, h⟩
          have hLength := readLength_lengthOctets_append he (content ++ rest)
          rw [h, readLength_lengthOctets_append he'] at hLength
          rcases Prod.mk.inj (Except.ok.inj hLength) with ⟨hSame, hBehind⟩
          rcases List.append_inj hBehind hSame with ⟨rfl, rfl⟩
          exact ⟨rfl, rfl⟩

theorem flatMap_toOctets_inj {es es' : List Element}
    (hes : ∀ e ∈ es, e.content.length ≤ maxLength)
    (hes' : ∀ e ∈ es', e.content.length ≤ maxLength)
    (h : es.flatMap Element.toOctets = es'.flatMap Element.toOctets) : es = es' := by
  induction es generalizing es' with
  | nil =>
      cases es' with
      | nil => rfl
      | cons e' es' => cases h
  | cons e es ih =>
      cases es' with
      | nil => cases h
      | cons e' es' =>
          rcases List.forall_mem_cons.1 hes with ⟨he, hTail⟩
          rcases List.forall_mem_cons.1 hes' with ⟨he', hTail'⟩
          rw [List.flatMap_cons, List.flatMap_cons] at h
          rcases Element.toOctets_append_inj he he' h with ⟨rfl, hRest⟩
          rw [ih hTail hTail' hRest]

/-! ## Sizes -/

theorem length_lengthOctets (n : Nat) :
    (lengthOctets n).length =
      if n < 0x80 then 1 else if n < 0x100 then 2 else if n < 0x10000 then 3
        else if n < 0x1000000 then 4 else 5 := by
  rw [lengthOctets]
  -- One case for each form of a length.
  split
  · rfl
  split
  · simp [length_bigEndian]
  split
  · simp [length_bigEndian]
  split
  · simp [length_bigEndian]
  · simp [length_bigEndian]

theorem length_lengthOctets_le (n : Nat) : (lengthOctets n).length ≤ 5 := by
  rw [length_lengthOctets]
  split_ifs <;> omega

theorem length_lengthOctets_mono {m n : Nat} (h : m ≤ n) :
    (lengthOctets m).length ≤ (lengthOctets n).length := by
  rw [length_lengthOctets, length_lengthOctets]
  split_ifs <;> omega

/-- What holds more is longer as a whole. -/
theorem Element.length_toOctets_mono {e e' : Element} (h : e.content.length ≤ e'.content.length) :
    e.toOctets.length ≤ e'.toOctets.length := by
  have hLength := length_lengthOctets_mono h
  rw [e.length_toOctets, e'.length_toOctets]
  omega

theorem Element.length_toOctets_le (e : Element) :
    e.toOctets.length ≤ 6 + e.content.length := by
  have hLength := length_lengthOctets_le e.content.length
  rw [e.length_toOctets]
  omega

theorem length_flatMap_toOctets_le {es : List Element} {bound : Nat}
    (h : ∀ e ∈ es, e.toOctets.length ≤ bound) :
    (es.flatMap Element.toOctets).length ≤ es.length * bound := by
  induction es with
  | nil =>
      exact Nat.zero_le _
  | cons e es ih =>
      rcases List.forall_mem_cons.1 h with ⟨he, hes⟩
      have hRest := ih hes
      rw [List.flatMap_cons, List.length_append, List.length_cons, Nat.succ_mul]
      omega

end Der
end MemberNames
