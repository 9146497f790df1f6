import MemberNames.Text.Basic
import Mathlib.Data.List.DropRight

/-!
# Trimming, cutting and joining

Trimming is characterised by what it takes away: the text is what is left, between two runs of the
class whose ends do not belong to the class themselves.

* `Text.exists_trimmedEnd`: every list ends in a longest run of a class
* `Text.trimStart_eq_iff`, `Text.trimEnd_eq_iff`, `Text.trim_eq_iff`: trimming
* `Text.splitFirst_eq_some_iff`: cutting at the first occurrence of a character
* `Text.splitOn_eq_iff`: cutting at every occurrence of a character
* `Text.mem_intercalate_iff`: the characters of joined pieces
* `Text.ascii_induction`: the characters of the ASCII range, one by one
-/

namespace MemberNames
namespace Text

/-! ## Trimming -/

theorem exists_trimmedEnd {α : Type} (p : α → Bool) (s : List α) :
    ∃ t trail, s = t ++ trail ∧ (∀ a ∈ trail, p a) ∧ ∀ a, t.getLast? = some a → p a = false := by
  refine ⟨s.rdropWhile p, s.rtakeWhile p, List.rdropWhile_append_rtakeWhile.symm, ?_, ?_⟩
  · intro a ha
    exact List.mem_rtakeWhile_imp ha
  · intro a ha
    -- The list that is left over is not empty, so that its last item stopped the run.
    rcases List.getLast?_eq_some_iff.1 ha with ⟨front, hFront⟩
    have hNe : s.rdropWhile p ≠ [] := by
      rw [hFront]
      exact List.append_ne_nil_of_right_ne_nil front (List.cons_ne_nil a [])
    have hLast := List.rdropWhile_last_not p s hNe
    simp only [hFront, List.getLast_append_singleton] at hLast
    exact Bool.eq_false_iff.2 hLast

theorem trimStart_eq_iff {p : Char → Bool} {s t : Text} :
    trimStart p s = t ↔
      ∃ lead, s = lead ++ t ∧ (∀ c ∈ lead, p c) ∧ ∀ c, t.head? = some c → p c = false := by
  constructor
  · rintro rfl
    refine ⟨s.takeWhile p, List.takeWhile_append_dropWhile.symm, ?_, ?_⟩
    · intro c hc
      exact List.mem_takeWhile_imp hc
    · intro c hc
      have hHead := List.head?_dropWhile_not p s
      rw [trimStart] at hc
      rw [hc] at hHead
      simpa using hHead
  · intro h
    rcases h with ⟨lead, rfl, hLead, hHead⟩
    rw [trimStart, List.dropWhile_append_of_pos hLead]
    cases t with
    | nil =>
        rfl
    | cons c t =>
        have hc := hHead c rfl
        rw [List.dropWhile_cons_of_neg (by rw [hc]; decide)]

theorem trimEnd_eq_iff {p : Char → Bool} {s t : Text} :
    trimEnd p s = t ↔
      ∃ trail, s = t ++ trail ∧ (∀ c ∈ trail, p c) ∧ ∀ c, t.getLast? = some c → p c = false := by
  -- Trimming at the end is trimming the reversed text at its start.
  have hReverse : trimEnd p s = t ↔ trimStart p s.reverse = t.reverse := by
    rw [trimEnd, trimStart]
    exact List.reverse_eq_iff
  rw [hReverse, trimStart_eq_iff]
  constructor
  · intro h
    rcases h with ⟨lead, hs, hLead, hHead⟩
    refine ⟨lead.reverse, ?_, ?_, ?_⟩
    · have hBack := congrArg List.reverse hs
      simpa using hBack
    · intro c hc
      exact hLead c (List.mem_reverse.1 hc)
    · intro c hc
      exact hHead c (by rw [List.head?_reverse]; exact hc)
  · intro h
    rcases h with ⟨trail, rfl, hTrail, hLast⟩
    refine ⟨trail.reverse, List.reverse_append, ?_, ?_⟩
    · intro c hc
      exact hTrail c (List.mem_reverse.1 hc)
    · intro c hc
      rw [List.head?_reverse] at hc
      exact hLast c hc

/-- What trimming at both ends leaves. -/
theorem trim_eq_iff {p : Char → Bool} {s t : Text} :
    trim p s = t ↔
      ∃ lead trail, s = lead ++ t ++ trail ∧ (∀ c ∈ lead, p c) ∧ (∀ c ∈ trail, p c) ∧
        (∀ c, t.head? = some c → p c = false) ∧ ∀ c, t.getLast? = some c → p c = false := by
  rw [trim, trimEnd_eq_iff]
  constructor
  · intro h
    rcases h with ⟨trail, hs, hTrail, hLast⟩
    rcases trimStart_eq_iff.1 hs with ⟨lead, rfl, hLead, hHead⟩
    refine ⟨lead, trail, (List.append_assoc _ _ _).symm, hLead, hTrail, ?_, hLast⟩
    intro c hc
    exact hHead c (by rw [List.head?_append, hc]; rfl)
  · intro h
    rcases h with ⟨lead, trail, rfl, hLead, hTrail, hHead, hLast⟩
    cases t with
    | nil =>
        -- Everything is trimmed at the start already.
        have hAll : ∀ c ∈ lead ++ trail, p c := List.forall_mem_append.2 ⟨hLead, hTrail⟩
        have hStart : trimStart p (lead ++ trail) = [] :=
          trimStart_eq_iff.2 ⟨lead ++ trail, (List.append_nil _).symm, hAll, hHead⟩
        refine ⟨[], ?_, ?_, hLast⟩
        · rw [List.append_nil, hStart]
          rfl
        · intro c hc
          cases hc
    | cons c t =>
        refine ⟨trail, ?_, hTrail, hLast⟩
        refine trimStart_eq_iff.2 ⟨lead, List.append_assoc _ _ _, hLead, ?_⟩
        intro d hd
        exact hHead d hd

theorem trim_append {p : Char → Bool} {lead : Text} (h : ∀ c ∈ lead, p c) (s : Text) :
    trim p (lead ++ s) = trim p s := by
  rw [trim, trim, trimStart, trimStart, List.dropWhile_append_of_pos h]

/-! ## Cutting -/

theorem splitFirst_append {sep : Char} {lead : Text} (h : sep ∉ lead) (s : Text) :
    splitFirst sep (lead ++ s) =
      (splitFirst sep s).map fun (before, after) => (lead ++ before, after) := by
  induction lead with
  | nil =>
      simp
  | cons c lead ih =>
      rw [List.mem_cons, not_or] at h
      rw [List.cons_append, splitFirst, if_neg (Ne.symm h.1), ih h.2, Option.map_map]
      rfl

theorem splitFirst_eq_some_iff {sep : Char} {s before after : Text} :
    splitFirst sep s = some (before, after) ↔ s = before ++ sep :: after ∧ sep ∉ before := by
  induction s generalizing before with
  | nil =>
      simp [splitFirst]
  | cons c s ih =>
      by_cases hc : c = sep
      · subst hc
        rw [splitFirst, if_pos rfl]
        constructor
        · intro h
          cases h
          exact ⟨rfl, List.not_mem_nil⟩
        · intro h
          rcases h with ⟨hs, hBefore⟩
          cases before with
          | nil =>
              rw [(List.cons.inj hs).2]
          | cons d before =>
              -- The separator would stand in front of its first occurrence.
              exact absurd (by rw [(List.cons.inj hs).1]; exact List.mem_cons_self) hBefore
      · rw [splitFirst, if_neg hc, Option.map_eq_some_iff]
        constructor
        · intro h
          rcases h with ⟨⟨front, back⟩, hFront, hPair⟩
          cases hPair
          rcases ih.1 hFront with ⟨rfl, hBefore⟩
          refine ⟨rfl, ?_⟩
          rw [List.mem_cons, not_or]
          exact ⟨Ne.symm hc, hBefore⟩
        · intro h
          rcases h with ⟨hs, hBefore⟩
          cases before with
          | nil =>
              exact absurd (List.cons.inj hs).1 hc
          | cons d before =>
              rcases List.cons.inj hs with ⟨rfl, rfl⟩
              rw [List.mem_cons, not_or] at hBefore
              exact ⟨(before, after), ih.2 ⟨rfl, hBefore.2⟩, rfl⟩

/-- Cutting at every occurrence is what the standard library does. -/
theorem splitOn_eq (sep : Char) (s : Text) : splitOn sep s = List.splitOn sep s := by
  induction s with
  | nil =>
      rfl
  | cons c s ih =>
      rw [List.splitOn_cons_eq_if_modifyHead, splitOn, ih]
      by_cases hc : c = sep
      · rw [if_pos hc, if_pos (beq_iff_eq.2 hc)]
      · rw [if_neg hc, if_neg (by simpa using hc)]
        -- There is always a first piece for the character to join.
        cases hWs : List.splitOn sep s with
        | nil => exact absurd hWs (List.splitOn_ne_nil sep s)
        | cons w ws => rfl

theorem not_mem_of_mem_splitOn {sep : Char} {s w : Text} (h : w ∈ splitOn sep s) : sep ∉ w := by
  fun_induction splitOn sep s generalizing w with
  | case1 =>
      rw [List.mem_singleton.1 h]
      exact List.not_mem_nil
  | case2 s ih =>
      rcases List.mem_cons.1 h with rfl | hMem
      · exact List.not_mem_nil
      · exact ih hMem
  | case3 c s hc hRest ih =>
      rw [List.mem_singleton.1 h, List.mem_singleton]
      exact Ne.symm hc
  | case4 c s hc w' ws hRest ih =>
      rcases List.mem_cons.1 h with rfl | hMem
      · rw [List.mem_cons, not_or]
        exact ⟨Ne.symm hc, ih (by rw [hRest]; exact List.mem_cons_self)⟩
      · exact ih (by rw [hRest]; exact List.mem_cons_of_mem _ hMem)

theorem splitOn_eq_iff {sep : Char} {s : Text} {ws : List Text} :
    splitOn sep s = ws ↔ ws ≠ [] ∧ s = [sep].intercalate ws ∧ ∀ w ∈ ws, sep ∉ w := by
  constructor
  · rintro rfl
    refine ⟨?_, ?_, fun w hw => not_mem_of_mem_splitOn hw⟩
    · rw [splitOn_eq]
      exact List.splitOn_ne_nil sep s
    · rw [splitOn_eq, List.intercalate_splitOn]
  · intro h
    rcases h with ⟨hNe, rfl, hWs⟩
    rw [splitOn_eq]
    exact List.splitOn_intercalate sep hWs hNe

/-- Pieces with a separator behind each of them are the pieces between separators, but for the empty
one at the end. -/
theorem splitOn_flatMap {sep : Char} {ws : List Text} (h : ∀ w ∈ ws, sep ∉ w) :
    splitOn sep (ws.flatMap (· ++ [sep])) = ws ++ [[]] := by
  refine splitOn_eq_iff.2 ⟨by simp, ?_, ?_⟩
  · induction ws with
    | nil =>
        rfl
    | cons w ws ih =>
        have hRest : ws ++ [[]] ≠ [] := by simp
        rcases List.exists_cons_of_ne_nil hRest with ⟨w', ws', hCons⟩
        rw [List.flatMap_cons, ih (List.forall_mem_cons.1 h).2, List.cons_append, hCons,
          List.intercalate_cons_cons]
  · intro w hw
    rcases List.mem_append.1 hw with hMem | hMem
    · exact h w hMem
    · rw [List.mem_singleton.1 hMem]
      exact List.not_mem_nil

/-! ## Joining -/

theorem mem_intercalate_iff {gap : Text} {c : Char} (h : c ∉ gap) {pieces : List Text} :
    c ∈ gap.intercalate pieces ↔ ∃ piece ∈ pieces, c ∈ piece := by
  induction pieces with
  | nil =>
      simp
  | cons piece pieces ih =>
      cases pieces with
      | nil =>
          simp
      | cons piece' pieces =>
          rw [List.intercalate_cons_cons, List.mem_append, List.mem_append, ih, or_iff_left h]
          simp only [List.mem_cons, exists_eq_or_imp]

/-! ## The ASCII range -/

theorem toNat_lt_of_isAlphanum {c : Char} (h : c.isAlphanum) : c.toNat < 128 := by
  rcases Bool.or_eq_true_iff.1 h with hAlpha | hDigit
  · rcases Bool.or_eq_true_iff.1 hAlpha with hUpper | hLower
    · have hLast : c.val ≤ 'Z'.val := (of_decide_eq_true hUpper).2
      exact Nat.lt_of_le_of_lt (UInt32.le_iff_toNat_le.1 hLast) (by decide)
    · have hLast : c.val ≤ 'z'.val := of_decide_eq_true (Bool.and_eq_true_iff.1 hLower).2
      exact Nat.lt_of_le_of_lt (UInt32.le_iff_toNat_le.1 hLast) (by decide)
  · have hLast : c.val ≤ '9'.val := of_decide_eq_true (Bool.and_eq_true_iff.1 hDigit).2
    exact Nat.lt_of_le_of_lt (UInt32.le_iff_toNat_le.1 hLast) (by decide)

/-- What holds of each of its characters holds of all of them. -/
theorem ascii_induction (P : Char → Prop) (h : ∀ n : Fin 128, P (Char.ofNat n)) {c : Char}
    (hc : c.toNat < 128) : P c := by
  have hChar := h ⟨c.toNat, hc⟩
  rw [Char.ofNat_toNat] at hChar
  exact hChar

end Text
end MemberNames
