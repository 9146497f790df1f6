import MemberNames.Proofs.Result
import MemberNames.Proofs.Text.Utf8
import MemberNames.Text.Slice

/-!
# Cutting octets at offsets

The octets of a text can be cut exactly where the text itself can be cut, and what is cut out is the
octets of what lies between.

* `Utf8.isBoundary_encode_iff`: where octets are cut
* `Utf8.slice?_encode`, `Utf8.exists_of_slice?_zero`: what is between two offsets
* `SliceError.slice_encode`, `SliceError.lift_ne_badOffset`: computations that cut octets
-/

namespace MemberNames
namespace Utf8

/-! ## Boundaries -/

theorem isTail_tailOctet (n : Nat) : isTail (tailOctet n) := by
  simp only [isTail, toNat_tailOctet, Bool.and_eq_true, decide_eq_true_eq]
  omega

theorem isTail_ofNat {n : Nat} (hLt : n < 256) (h : n < 0x80 ∨ 0xC0 ≤ n) :
    isTail (UInt8.ofNat n) = false := by
  rw [isTail, toNat_ofNat_of_lt hLt, Bool.and_eq_false_iff, decide_eq_false_iff_not,
    decide_eq_false_iff_not]
  omega

/-- Only the first octet of a character begins one. -/
theorem encodeChar_eq_cons (c : Char) :
    ∃ lead tail, encodeChar c = lead :: tail ∧ isTail lead = false ∧ ∀ b ∈ tail, isTail b := by
  have hMax := toNat_lt c
  have hTail : ∀ ns : List Nat, ∀ b ∈ ns.map tailOctet, isTail b := by
    intro ns b hb
    rcases List.mem_map.1 hb with ⟨n, -, rfl⟩
    exact isTail_tailOctet n
  simp only [encodeChar]
  split
  · exact ⟨_, _, rfl, isTail_ofNat (by omega) (by omega), hTail []⟩
  split
  · exact ⟨_, _, rfl, isTail_ofNat (by omega) (by omega), hTail [_]⟩
  split
  · exact ⟨_, _, rfl, isTail_ofNat (by omega) (by omega), hTail [_, _]⟩
  · exact ⟨_, _, rfl, isTail_ofNat (by omega) (by omega), hTail [_, _, _]⟩

theorem isBoundary_size (before after : Text) :
    isBoundary (encode (before ++ after)) (size before) := by
  cases after with
  | nil =>
      simp [isBoundary, size]
  | cons c after =>
      rcases encodeChar_eq_cons c with ⟨lead, tail, hOctets, hLead, -⟩
      simp [isBoundary, size, hOctets, hLead]

/-- Behind a character, offsets count from its end. -/
theorem isBoundary_encodeChar_append {c : Char} {octets : Octets} {offset : Nat} :
    isBoundary (encodeChar c ++ octets) ((encodeChar c).length + offset) =
      isBoundary octets offset := by
  have hEnd : ((encodeChar c).length + offset == (encodeChar c).length + octets.length) =
      (offset == octets.length) := by
    rw [Bool.eq_iff_iff, beq_iff_eq, beq_iff_eq, Nat.add_left_cancel_iff]
  rw [isBoundary, isBoundary, List.length_append, hEnd,
    List.getElem?_append_right (Nat.le_add_right _ _), Nat.add_sub_cancel_left]

/-- No character is cut apart. -/
theorem eq_zero_of_isBoundary {c : Char} {octets : Octets} {offset : Nat}
    (h : isBoundary (encodeChar c ++ octets) offset) (hLt : offset < (encodeChar c).length) :
    offset = 0 := by
  rcases encodeChar_eq_cons c with ⟨lead, tail, hOctets, -, hTail⟩
  cases offset with
  | zero => rfl
  | succ offset =>
      rw [hOctets, List.length_cons] at hLt
      have hInside : offset < tail.length := Nat.lt_of_succ_lt_succ hLt
      have hOctet := hTail tail[offset] (List.getElem_mem hInside)
      simp only [isBoundary, hOctets, List.cons_append, List.length_cons, List.length_append,
        List.getElem?_cons_succ, List.getElem?_append_left hInside,
        List.getElem?_eq_getElem hInside, Option.any_some, hOctet] at h
      simp only [Bool.not_true, Bool.or_false, beq_iff_eq] at h
      omega

theorem isBoundary_encode_iff {s : Text} {offset : Nat} :
    isBoundary (encode s) offset ↔ ∃ before after, s = before ++ after ∧ offset = size before := by
  constructor
  · intro h
    induction s generalizing offset with
    | nil =>
        refine ⟨[], [], rfl, ?_⟩
        simpa [isBoundary, size] using h
    | cons c s ih =>
        rw [encode_cons] at h
        by_cases hLt : offset < (encodeChar c).length
        · exact ⟨[], c :: s, rfl, eq_zero_of_isBoundary h hLt⟩
        · rcases Nat.exists_eq_add_of_le (Nat.le_of_not_lt hLt) with ⟨rest, rfl⟩
          rw [isBoundary_encodeChar_append] at h
          rcases ih h with ⟨before, after, rfl, rfl⟩
          refine ⟨c :: before, after, rfl, ?_⟩
          rw [size, size, encode_cons, List.length_append]
  · rintro ⟨before, after, rfl, rfl⟩
    exact isBoundary_size before after

/-! ## Slices -/

theorem slice?_encode (before middle after : Text) :
    slice? (encode (before ++ middle ++ after)) (size before) (size before + size middle) =
      some (encode middle) := by
  have hLast : size before + size middle = size (before ++ middle) := by
    simp [size]
  have hFirst : isBoundary (encode (before ++ middle ++ after)) (size before) := by
    rw [List.append_assoc]
    exact isBoundary_size before (middle ++ after)
  have hEnd : isBoundary (encode (before ++ middle ++ after)) (size before + size middle) := by
    rw [hLast]
    exact isBoundary_size (before ++ middle) after
  rw [slice?, if_pos ⟨Nat.le_add_right _ _, hFirst, hEnd⟩]
  simp [size]

theorem slice?_encode_zero (before after : Text) :
    slice? (encode (before ++ after)) 0 (size before) = some (encode before) := by
  have hSlice := slice?_encode [] before after
  have hStart : size [] = 0 := rfl
  rw [hStart, Nat.zero_add] at hSlice
  exact hSlice

/-- The front of the octets of a text is the octets of the front of the text. -/
theorem exists_of_slice?_zero {s : Text} {last : Nat} {octets : Octets}
    (h : slice? (encode s) 0 last = some octets) :
    ∃ before after, s = before ++ after ∧ octets = encode before := by
  rw [slice?] at h
  split at h
  · rename_i hBounds
    rcases isBoundary_encode_iff.1 hBounds.2.2 with ⟨before, after, rfl, rfl⟩
    refine ⟨before, after, rfl, ?_⟩
    rw [← Option.some.inj h]
    simp [size]
  · cases h

end Utf8

/-! ## Computations that cut octets -/

namespace SliceError

variable {α ε : Type}

@[simp] theorem lift_ok (a : α) : lift (.ok a : Except ε α) = .ok a :=
  rfl

@[simp] theorem lift_error (e : ε) : lift (.error e : Except ε α) = .error (.cause e) :=
  rfl

theorem lift_eq_ok_iff {r : Except ε α} {a : α} : lift r = .ok a ↔ r = .ok a :=
  Result.mapError_eq_ok_iff

theorem lift_ne_badOffset (r : Except ε α) : lift r ≠ .error .badOffset := by
  intro h
  cases r <;> cases h

theorem slice_encode (before middle after : Text) :
    slice (ε := ε) (Utf8.encode (before ++ middle ++ after)) (Utf8.size before)
      (Utf8.size before + Utf8.size middle) = .ok (Utf8.encode middle) := by
  rw [slice, Utf8.slice?_encode]

theorem slice_encode_zero (before after : Text) :
    slice (ε := ε) (Utf8.encode (before ++ after)) 0 (Utf8.size before) =
      .ok (Utf8.encode before) := by
  rw [slice, Utf8.slice?_encode_zero]

theorem slice_encode_length (before after : Text) :
    slice (ε := ε) (Utf8.encode (before ++ after)) (Utf8.size before)
      (Utf8.encode (before ++ after)).length = .ok (Utf8.encode after) := by
  have hSlice := slice_encode (ε := ε) before after []
  have hEnd : Utf8.size before + Utf8.size after = (Utf8.encode (before ++ after)).length := by
    simp [Utf8.size]
  rw [List.append_nil, hEnd] at hSlice
  exact hSlice

end SliceError
end MemberNames
