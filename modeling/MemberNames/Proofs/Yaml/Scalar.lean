import MemberNames.Proofs.Text.Basic
import MemberNames.Yaml.Scalar.Inline

/-!
# Words in YAML documents

A word is a text of letters, digits and underscores. In a block it is a plain scalar of its own if a
colon or the end of its line follows, and what stands in front of it on its line is skipped.

* `Yaml.Word`: words
* `Yaml.isSolid`, `Yaml.IsLineStart`: characters at which skipping stops
* `Yaml.Scalar.plainFrom_append`, `Yaml.Scalar.plainFrom_colon`, `Yaml.Scalar.plainFrom_newline`:
  words as plain scalars, and what ends them
* `Yaml.Cursor.skip_of_isLineStart`, `Yaml.Cursor.skip_space`, `Yaml.Cursor.skip_newline`: the place
  of the next token
-/

namespace MemberNames
namespace Yaml

/-! ## Characters -/

/-- The characters of words: letters and digits of the ASCII range, and underscores. -/
def isWordChar (c : Char) : Bool :=
  c.isAlphanum || c = '_'

/-- A text of such characters that is short enough for a key. -/
structure Word where
  text : Text
  ne_nil : text ≠ []
  isWordChar : ∀ c ∈ text, isWordChar c
  length_le : text.length ≤ 1024

/-- Characters that are neither blanks nor line breaks, and start no comment. -/
def isSolid (c : Char) : Bool :=
  !isBlank c && !isBreak c && c ≠ '#' && c.toNat ≠ 0xFEFF

/-- Characters that words do not have. -/
def marks : List Char :=
  ['-', '.', ':', '?'] ++ Scalar.indicators

theorem toNat_lt_of_isWordChar {c : Char} (h : isWordChar c) : c.toNat < 128 := by
  rcases Bool.or_eq_true_iff.1 h with hAlphanum | hUnderscore
  · exact Text.toNat_lt_of_isAlphanum hAlphanum
  · rw [of_decide_eq_true hUnderscore]
    decide

theorem isSolid_of_isWordChar {c : Char} (h : isWordChar c) : isSolid c ∧ c ∉ marks :=
  Text.ascii_induction (fun d => isWordChar d → isSolid d ∧ d ∉ marks) (by decide)
    (toNat_lt_of_isWordChar h) h

variable {c : Char} {s rest : Text}

theorem isSolid_iff :
    isSolid c ↔ isBlank c = false ∧ isBreak c = false ∧ c ≠ '#' ∧ c.toNat ≠ 0xFEFF := by
  simp only [isSolid, Bool.and_eq_true, Bool.not_eq_true', decide_eq_true_eq, and_assoc]

theorem ne_of_isWordChar (h : isWordChar c) {d : Char} (hd : d ∈ marks) : c ≠ d := by
  rintro rfl
  exact (isSolid_of_isWordChar h).2 hd

/-- The start of a line that has something on it, or the end. -/
def IsLineStart (s : Text) : Prop :=
  ∀ c, s.head? = some c → isSolid c

theorem isLineStart_cons (h : isSolid c) (s : Text) : IsLineStart (c :: s) := by
  intro d hd
  cases hd
  exact h

theorem isLineStart_word (w : Word) (s : Text) : IsLineStart (w.text ++ s) := by
  cases hText : w.text with
  | nil => exact absurd hText w.ne_nil
  | cons c text =>
      have hc : isWordChar c := w.isWordChar c (hText ▸ List.mem_cons_self)
      exact isLineStart_cons (isSolid_of_isWordChar hc).1 _

/-! ## Skipping -/

namespace Cursor

theorem atMarker_of_ne {d : Char} (h : c ≠ d) (s : Text) (line column : Nat) :
    (⟨c :: s, line, column⟩ : Cursor).atMarker d = false := by
  simp [atMarker, h]

theorem skip_of_isLineStart (h : IsLineStart s) (line column : Nat) (keyAllowed : Bool) :
    (⟨s, line, column⟩ : Cursor).skip false keyAllowed = (⟨s, line, column⟩, keyAllowed) := by
  cases s with
  | nil => rfl
  | cons c s =>
      rcases isSolid_iff.1 (h c rfl) with ⟨hBlank, hBreak, hComment, hMark⟩
      simp only [isBlank, Bool.or_eq_false_iff, decide_eq_false_iff_not] at hBlank
      rw [skip, skipFrom, hBreak]
      simp [hBlank, hComment, hMark]

theorem skip_space (h : IsLineStart s) (line column : Nat) (keyAllowed : Bool) :
    (⟨' ' :: s, line, column⟩ : Cursor).skip false keyAllowed =
      (⟨s, line, column + 1⟩, keyAllowed) := by
  have hRest := skip_of_isLineStart h line (column + 1) keyAllowed
  rw [skip, skipFrom, if_neg (by decide), if_pos (by simp)]
  exact hRest

theorem skip_newline (h : IsLineStart s) (line column : Nat) (keyAllowed : Bool) :
    (⟨'\n' :: s, line, column⟩ : Cursor).skip false keyAllowed = (⟨s, line + 1, 0⟩, true) := by
  have hRest := skip_of_isLineStart h (line + 1) 0 true
  rw [skip, skipFrom, if_pos (by decide), Bool.not_false, Bool.or_true]
  exact hRest

end Cursor

/-! ## Scalars -/

namespace Scalar

variable {least line column : Nat}

theorem plainFrom_append {w : Text} (h : ∀ c ∈ w, isWordChar c) (rest : Text) :
    plainFrom false least line column .none (w ++ rest) =
      (plainFrom false least line (column + w.length) .none rest).map (.prepend w) := by
  induction w generalizing column with
  | nil =>
      rw [List.nil_append, List.length_nil, Nat.add_zero]
      cases plainFrom false least line column .none rest <;> rfl
  | cons c w ih =>
      rcases List.forall_mem_cons.1 h with ⟨hc, hw⟩
      rcases isSolid_iff.1 (isSolid_of_isWordChar hc).1 with ⟨hBlank, hBreak, -⟩
      have hColon : c ≠ ':' := ne_of_isWordChar hc (by decide)
      have hHyphen : c ≠ '-' := ne_of_isWordChar hc (by decide)
      have hDot : c ≠ '.' := ne_of_isWordChar hc (by decide)
      rw [List.cons_append, plainFrom]
      simp only [hBlank, hBreak, hColon, Gap.isBroken, Gap.isNone, Cursor.atAnyMarker,
        Cursor.atMarker_of_ne hHyphen, Cursor.atMarker_of_ne hDot, endsPlain, isStrayColon,
        Gap.text, ih hw, Bool.false_eq_true, if_false, decide_false, Bool.false_and, Bool.not_true,
        Bool.or_self, List.nil_append, Option.map_map, List.length_cons]
      rw [Nat.add_assoc, Nat.add_comm 1]
      rfl

theorem plainFrom_colon (h : endsToken s) :
    plainFrom false least line column .none (':' :: s) =
      some ⟨[], ⟨':' :: s, line, column⟩, false⟩ := by
  have hEnds : endsPlain false ':' s := by
    simp [endsPlain, h]
  rw [plainFrom, if_neg (by decide), if_neg (by decide), if_pos]
  · rfl
  · simp [hEnds]

/-- A scalar goes on only on lines that are indented. -/
theorem plainFrom_newline (hLeast : 0 < least) (h : IsLineStart rest) :
    plainFrom false least line column .none ('\n' :: rest) =
      some ⟨[], ⟨rest, line + 1, 0⟩, true⟩ := by
  rw [plainFrom, if_neg (by decide), if_pos (by decide)]
  cases rest with
  | nil => rfl
  | cons c rest =>
      rcases isSolid_iff.1 (h c rfl) with ⟨hBlank, hBreak, -⟩
      rw [plainFrom, hBlank, hBreak]
      simp [Gap.addBreak, Gap.isBroken, hLeast]

end Scalar
end Yaml
end MemberNames
