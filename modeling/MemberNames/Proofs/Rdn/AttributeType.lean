import MemberNames.Proofs.Rdn.Segment
import MemberNames.Proofs.Text.Basic
import MemberNames.Rdn.AttributeType

/-!
# What attribute types denote

A token denotes an attribute type in one of three ways, and no token in more than one: a keyword
denotes itself in upper case, and dotted digits denote themselves, with or without a label in front.
White space around a token does not matter. Neither a token nor white space holds a character that
the cut looks at.

* `AttributeType.Denotes`: tokens and their types
* `AttributeType.read_eq_ok_iff`: reading a type
* `AttributeType.Denotes.isTokenChar`: the characters of a token
* `AttributeType.Denotes.self`: types as tokens
-/

namespace MemberNames
namespace AttributeType

/-- Digits, or several runs of digits with a dot between each two. -/
def IsDottedDigits (s : Text) : Prop :=
  ∃ arcs, arcs ≠ [] ∧ s = ['.'].intercalate arcs ∧
    ∀ arc ∈ arcs, arc ≠ [] ∧ ∀ c ∈ arc, c.isDigit

/-- The label that may stand in front of dotted digits, in any letter case. -/
def IsLabel (s : Text) : Prop :=
  Text.lower s = ['o', 'i', 'd', '.']

/-- A token and the type that it denotes. -/
inductive Denotes : Text → Text → Prop where
  | keyword {c : Char} {s : Text} :
      c.isAlpha → (∀ d ∈ s, d.isAlphanum ∨ d = '-') → Denotes (c :: s) (Text.upper (c :: s))
  | dotted {s : Text} :
      IsDottedDigits s → Denotes s s
  | labelled {label s : Text} :
      IsLabel label → IsDottedDigits s → Denotes (label ++ s) s

/-! ## Characters -/

/-- The characters of keywords, labels and dotted digits. -/
def isTokenChar (c : Char) : Bool :=
  c.isAlphanum || c = '-' || c = '.'

theorem isAlphanum_of_isAlpha {c : Char} (h : c.isAlpha) : c.isAlphanum :=
  Bool.or_eq_true_iff.2 (.inl h)

theorem isAlphanum_of_isDigit {c : Char} (h : c.isDigit) : c.isAlphanum :=
  Bool.or_eq_true_iff.2 (.inr h)

theorem toNat_lt_of_isTokenChar {c : Char} (h : isTokenChar c) : c.toNat < 128 := by
  simp only [isTokenChar, Bool.or_eq_true, decide_eq_true_eq] at h
  rcases h with (hAlphanum | rfl) | rfl
  · exact Text.toNat_lt_of_isAlphanum hAlphanum
  · decide
  · decide

/-- What holds of the ASCII characters among them holds of all of them. -/
theorem isTokenChar_induction (P : Char → Prop)
    (h : ∀ n : Fin 128, isTokenChar (Char.ofNat n) → P (Char.ofNat n)) {c : Char}
    (hc : isTokenChar c) : P c :=
  Text.ascii_induction (fun d => isTokenChar d → P d) h (toNat_lt_of_isTokenChar hc) hc

theorem isWhiteSpace_of_isTokenChar {c : Char} (h : isTokenChar c) :
    Unicode.isWhiteSpace c = false :=
  isTokenChar_induction (Unicode.isWhiteSpace · = false) (by decide) h

theorem isActive_of_isTokenChar {c : Char} (h : isTokenChar c) : Segment.isActive c = false :=
  Segment.isActive_eq_false (by decide) h

theorem isTokenChar_of_isAlphanum {c : Char} (h : c.isAlphanum) : isTokenChar c := by
  rw [isTokenChar, h]
  rfl

theorem isTokenChar_of_isAlpha {c : Char} (h : c.isAlpha) : isTokenChar c :=
  isTokenChar_of_isAlphanum (isAlphanum_of_isAlpha h)

theorem isTokenChar_of_isDigit {c : Char} (h : c.isDigit) : isTokenChar c :=
  isTokenChar_of_isAlphanum (isAlphanum_of_isDigit h)

theorem toLower_of_isDigit {c : Char} (h : c.isDigit) : c.toLower = c :=
  isTokenChar_induction (fun d => d.isDigit → d.toLower = d) (by decide)
    (isTokenChar_of_isDigit h) h

theorem isDigit_of_isAlpha {c : Char} (h : c.isAlpha) : c.isDigit = false :=
  isTokenChar_induction (fun d => d.isAlpha → d.isDigit = false) (by decide)
    (isTokenChar_of_isAlpha h) h

/-- Letter case does not matter. -/
theorem isTokenChar_of_toLower {c : Char} (h : isTokenChar c.toLower) : isTokenChar c := by
  by_cases hUpper : c.isUpper
  · exact isTokenChar_of_isAlpha (Bool.or_eq_true_iff.2 (.inl hUpper))
  · have hSame : c.toLower = c := dif_neg fun hRange => hUpper (decide_eq_true hRange)
    rw [← hSame]
    exact h

theorem isAlpha_toUpper {c : Char} (h : c.isAlpha) : c.toUpper.isAlpha :=
  isTokenChar_induction (fun d => d.isAlpha → d.toUpper.isAlpha) (by decide)
    (isTokenChar_of_isAlpha h) h

/-- What may follow the first letter of a keyword may do so in upper case. -/
theorem keywordTail_upper {s : Text} (h : ∀ c ∈ s, c.isAlphanum ∨ c = '-') :
    ∀ c ∈ Text.upper s, c.isAlphanum ∨ c = '-' := by
  intro c hc
  rcases List.mem_map.1 hc with ⟨d, hd, rfl⟩
  rcases h d hd with hAlphanum | rfl
  · exact .inl (isTokenChar_induction (fun d => d.isAlphanum → d.toUpper.isAlphanum) (by decide)
      (isTokenChar_of_isAlphanum hAlphanum) hAlphanum)
  · exact .inr rfl

theorem upper_upper {s : Text} (h : ∀ c ∈ s, isTokenChar c) :
    Text.upper (Text.upper s) = Text.upper s := by
  rw [Text.upper, Text.upper, List.map_map]
  apply List.map_congr_left
  intro c hc
  exact isTokenChar_induction (fun d => d.toUpper.toUpper = d.toUpper) (by decide) (h c hc)

theorem lower_upper {s : Text} (h : ∀ c ∈ s, isTokenChar c) :
    Text.lower (Text.upper s) = Text.lower s := by
  rw [Text.lower, Text.upper, Text.lower, List.map_map]
  apply List.map_congr_left
  intro c hc
  exact isTokenChar_induction (fun d => d.toUpper.toLower = d.toLower) (by decide) (h c hc)

/-! ## Dotted digits -/

theorem isDotted_iff {s : Text} : isDotted s ↔ IsDottedDigits s := by
  have hArc : ∀ arc : Text,
      (!arc.isEmpty && arc.all Char.isDigit) ↔ arc ≠ [] ∧ ∀ c ∈ arc, c.isDigit := by
    intro arc
    simp
  simp only [isDotted, List.all_eq_true, hArc]
  constructor
  · intro h
    rcases Text.splitOn_eq_iff.1 (rfl : Text.splitOn '.' s = _) with ⟨hNe, hs, -⟩
    exact ⟨_, hNe, hs, h⟩
  · intro h
    rcases h with ⟨arcs, hNe, hs, hArcs⟩
    -- Digits are no dots, so that cutting finds these arcs again.
    have hDots : ∀ arc ∈ arcs, '.' ∉ arc := by
      intro arc hMem hDot
      exact absurd ((hArcs arc hMem).2 '.' hDot) (by decide)
    rw [Text.splitOn_eq_iff.2 ⟨hNe, hs, hDots⟩]
    exact hArcs

namespace IsDottedDigits

theorem head {s : Text} (h : IsDottedDigits s) : ∃ c t, s = c :: t ∧ c.isDigit := by
  rcases h with ⟨arcs, hNe, rfl, hArcs⟩
  cases arcs with
  | nil =>
      exact absurd rfl hNe
  | cons arc arcs =>
      rcases hArcs arc List.mem_cons_self with ⟨hArc, hDigits⟩
      cases arc with
      | nil =>
          exact absurd rfl hArc
      | cons c arc =>
          have hDigit := hDigits c List.mem_cons_self
          cases arcs with
          | nil =>
              exact ⟨c, arc, List.intercalate_singleton, hDigit⟩
          | cons arc' arcs =>
              exact ⟨c, _, List.intercalate_cons_cons, hDigit⟩

theorem mem {s : Text} (h : IsDottedDigits s) {c : Char} (hc : c ∈ s) : c.isDigit ∨ c = '.' := by
  rcases h with ⟨arcs, -, rfl, hArcs⟩
  induction arcs with
  | nil =>
      cases hc
  | cons arc arcs ih =>
      rcases List.forall_mem_cons.1 hArcs with ⟨hArc, hRest⟩
      cases arcs with
      | nil =>
          rw [List.intercalate_singleton] at hc
          exact .inl (hArc.2 c hc)
      | cons arc' arcs =>
          rw [List.intercalate_cons_cons] at hc
          rcases List.mem_append.1 hc with hFront | hBack
          · rcases List.mem_append.1 hFront with hMem | hDot
            · exact .inl (hArc.2 c hMem)
            · exact .inr (List.mem_singleton.1 hDot)
          · exact ih hRest hBack

end IsDottedDigits

/-! ## Labels -/

theorem isLabel_iff {o i d dot : Char} :
    Text.sameIgnoringCase [o, i, d, dot] ['O', 'I', 'D', '.'] ↔ IsLabel [o, i, d, dot] := by
  rw [Text.sameIgnoringCase, beq_iff_eq]
  rfl

theorem IsLabel.dot_mem {label : Text} (h : IsLabel label) : '.' ∈ label := by
  rcases List.map_eq_cons_iff.1 h with ⟨o, rest, rfl, -, h⟩
  rcases List.map_eq_cons_iff.1 h with ⟨i, rest, rfl, -, h⟩
  rcases List.map_eq_cons_iff.1 h with ⟨d, rest, rfl, -, h⟩
  rcases List.map_eq_cons_iff.1 h with ⟨dot, rest, rfl, hLower, -⟩
  have hChar : isTokenChar dot := isTokenChar_of_toLower (by rw [hLower]; rfl)
  have hDot : dot = '.' :=
    isTokenChar_induction (fun c => c.toLower = '.' → c = '.') (by decide) hChar hLower
  rw [hDot]
  simp

theorem withoutOidLabel_append {label : Text} (h : IsLabel label) (s : Text) :
    Attribute.withoutOidLabel (label ++ s) = s := by
  have hLength : label.length = 4 := by
    have hLower := congrArg List.length h
    simpa [Text.lower] using hLower
  -- The label has the form that the reader looks for.
  match label, hLength with
  | [o, i, d, dot], _ =>
      exact if_pos (isLabel_iff.2 h)

theorem withoutOidLabel_cases (token : Text) :
    Attribute.withoutOidLabel token = token ∨
      ∃ label, IsLabel label ∧ token = label ++ Attribute.withoutOidLabel token := by
  rw [Attribute.withoutOidLabel.eq_def]
  split
  · rename_i o i d dot rest
    by_cases h : Text.sameIgnoringCase [o, i, d, dot] ['O', 'I', 'D', '.']
    · rw [if_pos h]
      exact .inr ⟨[o, i, d, dot], isLabel_iff.1 h, rfl⟩
    · rw [if_neg h]
      exact .inl rfl
  · exact .inl rfl

/-- Only a text that starts with a letter loses a label. -/
theorem withoutOidLabel_of_isDigit {c : Char} (h : c.isDigit) (s : Text) :
    Attribute.withoutOidLabel (c :: s) = c :: s := by
  rcases withoutOidLabel_cases (c :: s) with hSame | ⟨label, hLabel, hToken⟩
  · exact hSame
  · cases label with
    | nil =>
        cases hLabel
    | cons o label =>
        -- The digit would be a letter in some case.
        have hLower : c.toLower = 'o' := by
          rw [(List.cons.inj hToken).1]
          exact (List.cons.inj hLabel).1
        rw [toLower_of_isDigit h] at hLower
        subst hLower
        cases h

/-! ## Tokens -/

namespace Denotes

theorem ne_nil {token t : Text} (h : Denotes token t) : token ≠ [] := by
  cases h with
  | keyword _ _ =>
      exact List.cons_ne_nil _ _
  | dotted hDotted =>
      rcases hDotted.head with ⟨c, s, rfl, -⟩
      exact List.cons_ne_nil _ _
  | labelled _ hDotted =>
      rcases hDotted.head with ⟨c, s, rfl, -⟩
      exact List.append_ne_nil_of_right_ne_nil _ (List.cons_ne_nil _ _)

theorem isTokenChar {token t : Text} (h : Denotes token t) {c : Char} (hc : c ∈ token) :
    isTokenChar c := by
  have hDotted : ∀ {s : Text}, IsDottedDigits s → ∀ d ∈ s, AttributeType.isTokenChar d := by
    intro s hs d hd
    rcases hs.mem hd with hDigit | rfl
    · exact isTokenChar_of_isDigit hDigit
    · rfl
  cases h with
  | keyword hAlpha hTail =>
      rcases List.mem_cons.1 hc with rfl | hMem
      · exact isTokenChar_of_isAlpha hAlpha
      · rcases hTail c hMem with hAlphanum | rfl
        · exact isTokenChar_of_isAlphanum hAlphanum
        · rfl
  | dotted hDigits =>
      exact hDotted hDigits c hc
  | labelled hLabel hDigits =>
      rcases List.mem_append.1 hc with hMem | hMem
      · have hLower : c.toLower ∈ ['o', 'i', 'd', '.'] := by
          rw [← hLabel]
          exact List.mem_map_of_mem hMem
        have hAll : ['o', 'i', 'd', '.'].all AttributeType.isTokenChar := by decide
        exact isTokenChar_of_toLower (List.all_eq_true.1 hAll _ hLower)
      · exact hDotted hDigits c hMem

/-- Types denote themselves. -/
theorem self {token t : Text} (h : Denotes token t) : Denotes t t := by
  cases h with
  | @keyword c s hAlpha hTail =>
      have hSame : Text.upper (Text.upper (c :: s)) = Text.upper (c :: s) :=
        upper_upper fun d hd => (Denotes.keyword hAlpha hTail).isTokenChar hd
      have hDenotes : Denotes (Text.upper (c :: s)) (Text.upper (Text.upper (c :: s))) :=
        .keyword (isAlpha_toUpper hAlpha) (keywordTail_upper hTail)
      rw [hSame] at hDenotes
      exact hDenotes
  | dotted hDigits =>
      exact .dotted hDigits
  | labelled _ hDigits =>
      exact .dotted hDigits

end Denotes

/-- A label has a dot, and a keyword has none. -/
theorem withoutOidLabel_of_keyword {c : Char} {s : Text} (hAlpha : c.isAlpha)
    (hTail : ∀ d ∈ s, d.isAlphanum ∨ d = '-') : Attribute.withoutOidLabel (c :: s) = c :: s := by
  have hDot : '.' ∉ c :: s := by
    intro hMem
    rcases List.mem_cons.1 hMem with rfl | hMem
    · cases hAlpha
    · rcases hTail '.' hMem with hAlphanum | hHyphen
      · cases hAlphanum
      · cases hHyphen
  rcases withoutOidLabel_cases (c :: s) with hSame | ⟨label, hLabel, hToken⟩
  · exact hSame
  · refine absurd ?_ hDot
    rw [hToken]
    exact List.mem_append_left _ hLabel.dot_mem

/-- A keyword is not dotted, because dotted digits begin with a digit. -/
theorem isDotted_withoutOidLabel_of_keyword {c : Char} {s : Text} (hAlpha : c.isAlpha)
    (hTail : ∀ d ∈ s, d.isAlphanum ∨ d = '-') :
    isDotted (Attribute.withoutOidLabel (c :: s)) = false := by
  rw [withoutOidLabel_of_keyword hAlpha hTail, Bool.eq_false_iff]
  intro h
  rcases (isDotted_iff.1 h).head with ⟨d, t, hToken, hDigit⟩
  rw [← (List.cons.inj hToken).1, isDigit_of_isAlpha hAlpha] at hDigit
  cases hDigit

theorem isKeyword_cons_iff {c : Char} {s : Text} :
    isKeyword (c :: s) ↔ c.isAlpha ∧ ∀ d ∈ s, d.isAlphanum ∨ d = '-' := by
  simp [isKeyword]

theorem denotes_of_isKeyword {token : Text} (h : isKeyword token) :
    Denotes token (Text.upper token) := by
  cases token with
  | nil =>
      cases h
  | cons c s =>
      rcases isKeyword_cons_iff.1 h with ⟨hAlpha, hTail⟩
      exact .keyword hAlpha hTail

/-- The token is read after the white space around it is taken away. -/
theorem read_eq_ok_iff_trim {raw t : Text} :
    read raw = .ok t ↔ Denotes (Text.trim Unicode.isWhiteSpace raw) t := by
  rw [read]
  generalize Text.trim Unicode.isWhiteSpace raw = token
  cases token with
  | nil =>
      constructor
      · intro h
        cases h
      · intro h
        exact absurd rfl h.ne_nil
  | cons c s =>
      simp only [List.isEmpty_cons, Bool.false_eq_true, if_false]
      constructor
      · intro h
        split at h
        · rename_i hDotted
          rcases Except.ok.inj h with rfl
          have hDigits := isDotted_iff.1 hDotted
          rcases withoutOidLabel_cases (c :: s) with hSame | ⟨label, hLabel, hToken⟩
          · rw [hSame] at hDigits ⊢
            exact .dotted hDigits
          · have hDenotes := Denotes.labelled hLabel hDigits
            rw [← hToken] at hDenotes
            exact hDenotes
        · split at h
          · rename_i hKeyword
            rcases Except.ok.inj h with rfl
            exact denotes_of_isKeyword hKeyword
          · cases h
      · intro h
        -- Each way to denote a type is the first test that its token passes.
        generalize hToken : c :: s = token at h
        cases h with
        | keyword hAlpha hTail =>
            rw [isDotted_withoutOidLabel_of_keyword hAlpha hTail, if_neg (by decide),
              if_pos (isKeyword_cons_iff.2 ⟨hAlpha, hTail⟩)]
        | dotted hDotted =>
            rcases hDotted.head with ⟨d, u, rfl, hDigit⟩
            rw [withoutOidLabel_of_isDigit hDigit, if_pos (isDotted_iff.2 hDotted)]
        | labelled hLabel hDotted =>
            rw [withoutOidLabel_append hLabel, if_pos (isDotted_iff.2 hDotted)]

/-- White space around a token does not matter, and nothing else may stand there. -/
theorem read_eq_ok_iff {raw t : Text} :
    read raw = .ok t ↔
      ∃ lead token trail, raw = lead ++ token ++ trail ∧ Denotes token t ∧
        (∀ c ∈ lead, Unicode.isWhiteSpace c) ∧ ∀ c ∈ trail, Unicode.isWhiteSpace c := by
  rw [read_eq_ok_iff_trim]
  constructor
  · intro h
    rcases Text.trim_eq_iff.1 (rfl : Text.trim Unicode.isWhiteSpace raw = _) with
      ⟨lead, trail, hRaw, hLead, hTrail, -⟩
    exact ⟨lead, _, trail, hRaw, h, hLead, hTrail⟩
  · rintro ⟨lead, token, trail, hRaw, h, hLead, hTrail⟩
    -- No character of a token is white space, so that trimming stops at the token.
    have hToken : Text.trim Unicode.isWhiteSpace raw = token := by
      refine Text.trim_eq_iff.2 ⟨lead, trail, hRaw, hLead, hTrail, ?_, ?_⟩
      · intro c hc
        exact isWhiteSpace_of_isTokenChar (h.isTokenChar (List.mem_of_mem_head? hc))
      · intro c hc
        exact isWhiteSpace_of_isTokenChar (h.isTokenChar (List.mem_of_getLast? hc))
    rw [hToken]
    exact h

/-- A token that denotes nothing is empty, or it is quoted in the defect. -/
theorem defect_of_read {raw : Text} {d : Defect} (h : read raw = .error d) :
    d = .emptyType ∨ d = .invalidType (Text.trim Unicode.isWhiteSpace raw) := by
  rw [read] at h
  split at h
  · cases h
    exact .inl rfl
  split at h
  · cases h
  split at h
  · cases h
  · cases h
    exact .inr rfl

end AttributeType
end MemberNames
