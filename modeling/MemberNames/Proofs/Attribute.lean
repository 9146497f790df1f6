import MemberNames.Attribute
import MemberNames.Proofs.ObjectId
import MemberNames.Proofs.Rdn.AttributeType

/-!
# What types denote attributes

A type is classified twice. Where a text is read, it is dotted if every run between its dots is a
run of digits; where the attribute is looked up, it is dotted if it begins with a digit. Both take a
label away first. Still the type that is read denotes the same attribute as the token that was
written, and reading it again changes nothing.

* `ObjectId.SpellsArcs`, `ObjectId.ofDotted?_eq_some_iff`: dotted text, read arc by arc
* `ObjectId.ofDotted?_toDotted`: reading back the dotted form
* `Attribute.oid_inj`: different attributes have different identifiers
* `Attribute.ofToken?_keyword`, `Attribute.ofToken?_toDotted`: the two types of an attribute
* `Attribute.ofToken?_toDotted_eq_some_iff`: the types that dotted forms denote
* `Attribute.ofToken?_of_denotes`, `Attribute.types_resolve`: both classifications together
-/

namespace MemberNames

/-! ## Dotted text -/

namespace ObjectId

/-- The number that a run of digits is. -/
def number (run : Text) : Nat :=
  Nat.ofDigitChars 10 run 0

/-- Runs of digits with a dot between each two, and the numbers that they are. Zeros in front of a
number change nothing. -/
def SpellsArcs (s : Text) (arcs : List Nat) : Prop :=
  ∃ runs, runs ≠ [] ∧ s = ['.'].intercalate runs ∧
    (∀ run ∈ runs, run ≠ [] ∧ ∀ c ∈ run, c.isDigit) ∧ arcs = runs.map number

theorem SpellsArcs.isDottedDigits {s : Text} {arcs : List Nat} (h : SpellsArcs s arcs) :
    AttributeType.IsDottedDigits s := by
  rcases h with ⟨runs, hNe, hs, hRuns, -⟩
  exact ⟨runs, hNe, hs, hRuns⟩

/-- Digits are no dots, so that the runs of a text are what is between its dots. -/
theorem spellsArcs_iff {s : Text} {arcs : List Nat} :
    SpellsArcs s arcs ↔
      (∀ run ∈ Text.splitOn '.' s, run ≠ [] ∧ ∀ c ∈ run, c.isDigit) ∧
        arcs = (Text.splitOn '.' s).map number := by
  constructor
  · rintro ⟨runs, hNe, hs, hRuns, rfl⟩
    have hDots : ∀ run ∈ runs, '.' ∉ run := by
      intro run hRun hDot
      exact absurd ((hRuns run hRun).2 '.' hDot) (by decide)
    rw [Text.splitOn_eq_iff.2 ⟨hNe, hs, hDots⟩]
    exact ⟨hRuns, rfl⟩
  · rintro ⟨hRuns, hArcs⟩
    rcases Text.splitOn_eq_iff.1 (rfl : Text.splitOn '.' s = _) with ⟨hNe, hs, -⟩
    exact ⟨_, hNe, hs, hRuns, hArcs⟩

theorem SpellsArcs.unique {s : Text} {arcs arcs' : List Nat} (h : SpellsArcs s arcs)
    (h' : SpellsArcs s arcs') : arcs = arcs' := by
  rw [(spellsArcs_iff.1 h).2, (spellsArcs_iff.1 h').2]

theorem spellsArcs_toDotted {oid : ObjectId} (h : oid.arcs ≠ []) :
    SpellsArcs oid.toDotted oid.arcs := by
  refine ⟨oid.arcs.map Text.decimal, by simpa using h, rfl, ?_, ?_⟩
  · intro run hRun
    rcases List.mem_map.1 hRun with ⟨n, -, rfl⟩
    refine ⟨Nat.toDigits_ne_nil, ?_⟩
    intro c hc
    exact Nat.isDigit_of_mem_toDigits (by decide) (by decide) hc
  · have hNumber : number ∘ Text.decimal = id := funext fun n => Nat.ofDigitChars_ten_toDigits
    rw [List.map_map, hNumber, List.map_id]

theorem arc?_eq_some_iff {run : Text} {n : Nat} :
    arc? run = some n ↔
      (run ≠ [] ∧ ∀ c ∈ run, c.isDigit) ∧ n = number run ∧ number run < arcBound := by
  have hDigits : (!run.isEmpty && run.all Char.isDigit) ↔ run ≠ [] ∧ ∀ c ∈ run, c.isDigit := by
    simp
  have hArc : arc? run =
      if !run.isEmpty && run.all Char.isDigit then
        if number run < arcBound then some (number run) else none
      else none := rfl
  rw [← hDigits, hArc]
  by_cases h : !run.isEmpty && run.all Char.isDigit
  · by_cases hBound : number run < arcBound
    · rw [if_pos h, if_pos hBound, and_iff_right h, and_iff_left hBound, Option.some.injEq, eq_comm]
    · rw [if_pos h, if_neg hBound]
      exact iff_of_false (by simp) fun hRun => hBound hRun.2.2
  · rw [if_neg h]
    exact iff_of_false (by simp) fun hRun => h hRun.1

theorem mapM_arc?_eq_some_iff {runs : List Text} {arcs : List Nat} :
    runs.mapM arc? = some arcs ↔
      (∀ run ∈ runs, run ≠ [] ∧ ∀ c ∈ run, c.isDigit) ∧ arcs = runs.map number ∧
        ∀ arc ∈ arcs, arc < arcBound := by
  induction runs generalizing arcs with
  | nil =>
      constructor
      · intro h
        cases h
        exact ⟨List.forall_mem_nil _, rfl, List.forall_mem_nil _⟩
      · rintro ⟨-, rfl, -⟩
        rfl
  | cons run runs ih =>
      simp only [List.mapM_cons, Option.bind_eq_bind, Option.bind_eq_some_iff, arc?_eq_some_iff, ih,
        List.forall_mem_cons, List.map_cons]
      constructor
      · rintro ⟨n, ⟨hRun, rfl, hBound⟩, ns, ⟨hRuns, rfl, hBounds⟩, hArcs⟩
        cases hArcs
        exact ⟨⟨hRun, hRuns⟩, rfl, List.forall_mem_cons.2 ⟨hBound, hBounds⟩⟩
      · rintro ⟨⟨hRun, hRuns⟩, rfl, hBounds⟩
        rcases List.forall_mem_cons.1 hBounds with ⟨hBound, hBounds⟩
        exact ⟨_, ⟨hRun, rfl, hBound⟩, _, ⟨hRuns, rfl, hBounds⟩, rfl⟩

/-- The identifier that dotted text denotes, if there is one, has the arcs that the text spells. -/
theorem ofDotted?_eq_some_iff {s : Text} {oid : ObjectId} :
    ofDotted? s = some oid ↔
      SpellsArcs s oid.arcs ∧ (∀ arc ∈ oid.arcs, arc < arcBound) ∧ isAdmissible oid.arcs := by
  simp only [ofDotted?, Option.bind_eq_bind, Option.bind_eq_some_iff, mapM_arc?_eq_some_iff,
    spellsArcs_iff]
  constructor
  · rintro ⟨arcs, ⟨hRuns, hArcs, hBounds⟩, hOid⟩
    split at hOid
    · rename_i hAdmissible
      cases hOid
      exact ⟨⟨hRuns, hArcs⟩, hBounds, hAdmissible⟩
    · cases hOid
  · rintro ⟨⟨hRuns, hArcs⟩, hBounds, hAdmissible⟩
    exact ⟨oid.arcs, ⟨hRuns, hArcs, hBounds⟩, if_pos hAdmissible⟩

theorem ofDotted?_toDotted {oid oid' : ObjectId} (h : ofDotted? oid.toDotted = some oid') :
    oid' = oid := by
  by_cases hNil : oid.arcs = []
  · rw [toDotted, hNil] at h
    cases h
  · have hArcs := (ofDotted?_eq_some_iff.1 h).1.unique (spellsArcs_toDotted hNil)
    cases oid
    cases oid'
    exact congrArg ObjectId.mk hArcs

end ObjectId

/-! ## Attributes -/

namespace Attribute

theorem oid_inj {a b : Attribute} (h : a.oid = b.oid) : a = b := by
  revert h
  cases a <;> cases b <;> decide

theorem ofOid?_eq_some_iff {oid : ObjectId} {a : Attribute} :
    ofOid? oid = some a ↔ oid = a.oid := by
  constructor
  · intro h
    have hFound := List.find?_some h
    exact (of_decide_eq_true hFound).symm
  · rintro rfl
    cases a <;> rfl

theorem ofKeyword?_eq_of_lower_eq {s t : Text} (h : Text.lower s = Text.lower t) :
    ofKeyword? s = ofKeyword? t := by
  simp only [ofKeyword?, Text.sameIgnoringCase, h]

theorem ofKeyword?_eq_some_iff {token : Text} {a : Attribute} :
    ofKeyword? token = some a ↔ Text.lower token = Text.lower a.keyword := by
  constructor
  · intro h
    have hFound := List.find?_some h
    exact (beq_iff_eq.1 hFound).symm
  · intro h
    -- No two keywords are the same in lower case.
    rw [ofKeyword?_eq_of_lower_eq h]
    cases a <;> rfl

theorem ofDotted?_eq_some_oid_iff {s : Text} {a : Attribute} :
    ObjectId.ofDotted? s = some a.oid ↔ ObjectId.SpellsArcs s a.oid.arcs := by
  have hBounds : ∀ arc ∈ a.oid.arcs, arc < ObjectId.arcBound := by
    cases a <;> decide
  have hAdmissible : ObjectId.isAdmissible a.oid.arcs := by
    cases a <;> decide
  rw [ObjectId.ofDotted?_eq_some_iff, and_iff_left ⟨hBounds, hAdmissible⟩]

/-! ## Tokens -/

theorem ofToken?_keyword (a : Attribute) : ofToken? a.keyword = some a := by
  cases a <;> rfl

theorem ofToken?_toDotted (a : Attribute) : ofToken? a.oid.toDotted = some a := by
  cases a <;> rfl

/-- Dotted digits have no label, and they are looked up by their identifier. -/
theorem ofToken?_of_isDottedDigits {s : Text} (h : AttributeType.IsDottedDigits s) :
    ofToken? s = (ObjectId.ofDotted? s).bind ofOid? := by
  rcases h.head with ⟨c, t, rfl, hDigit⟩
  simp only [ofToken?, AttributeType.withoutOidLabel_of_isDigit hDigit, hDigit, if_true]

theorem ofToken?_label_append {label s : Text} (hLabel : AttributeType.IsLabel label)
    (h : AttributeType.IsDottedDigits s) : ofToken? (label ++ s) = ofToken? s := by
  rcases h.head with ⟨c, t, rfl, hDigit⟩
  rw [ofToken?_of_isDottedDigits h]
  simp only [ofToken?, AttributeType.withoutOidLabel_append hLabel, hDigit, if_true]

/-- Letters, digits and hyphens are looked up as a keyword if they begin with a letter. -/
theorem ofToken?_of_isAlpha {c : Char} {s : Text} (hAlpha : c.isAlpha)
    (hTail : ∀ d ∈ s, d.isAlphanum ∨ d = '-') : ofToken? (c :: s) = ofKeyword? (c :: s) := by
  simp only [ofToken?, AttributeType.withoutOidLabel_of_keyword hAlpha hTail,
    AttributeType.isDigit_of_isAlpha hAlpha, Bool.false_eq_true, if_false]

/-- The type that is read denotes the same attribute as the token. -/
theorem ofToken?_of_denotes {token t : Text} (h : AttributeType.Denotes token t) :
    ofToken? t = ofToken? token := by
  cases h with
  | @keyword c s hAlpha hTail =>
      -- The type is a keyword too, and keywords are looked up without regard to letter case.
      have hDenotes := AttributeType.Denotes.keyword hAlpha hTail
      have hLower := AttributeType.lower_upper fun d hd => hDenotes.isTokenChar hd
      rw [ofToken?_of_isAlpha hAlpha hTail, ← ofKeyword?_eq_of_lower_eq hLower]
      exact ofToken?_of_isAlpha (AttributeType.isAlpha_toUpper hAlpha)
        (AttributeType.keywordTail_upper hTail)
  | dotted _ =>
      rfl
  | labelled hLabel hDigits =>
      exact (ofToken?_label_append hLabel hDigits).symm

/-- A dotted form starts with a digit and has no label, so that it is read as an identifier. -/
theorem ofToken?_toDotted_eq_some_iff {oid : ObjectId} {a : Attribute} :
    ofToken? oid.toDotted = some a ↔ oid = a.oid := by
  constructor
  · intro h
    by_cases hNil : oid.arcs = []
    · rw [ObjectId.toDotted, hNil] at h
      cases h
    · rw [ofToken?_of_isDottedDigits (ObjectId.spellsArcs_toDotted hNil).isDottedDigits] at h
      rcases Option.bind_eq_some_iff.1 h with ⟨oid', hDotted, hOid⟩
      rw [← ObjectId.ofDotted?_toDotted hDotted]
      exact ofOid?_eq_some_iff.1 hOid
  · rintro rfl
    exact a.ofToken?_toDotted

/-! ## Both classifications -/

/-- The letters of a keyword in any letter case are letters with the same upper case. -/
theorem isAlpha_and_toUpper_of_mem {token : Text} {a : Attribute}
    (h : Text.lower token = Text.lower a.keyword) {c : Char} (hc : c ∈ token) :
    c.isAlpha ∧ c.toLower.toUpper = c.toUpper := by
  have hAlpha : (Text.lower a.keyword).all Char.isAlpha := by
    cases a <;> decide
  have hMem : c.toLower ∈ Text.lower a.keyword := by
    rw [← h]
    exact List.mem_map_of_mem hc
  have hLower : c.toLower.isAlpha := List.all_eq_true.1 hAlpha _ hMem
  have hChar : AttributeType.isTokenChar c :=
    AttributeType.isTokenChar_of_toLower (AttributeType.isTokenChar_of_isAlpha hLower)
  exact AttributeType.isTokenChar_induction
    (fun d => d.toLower.isAlpha → d.isAlpha ∧ d.toLower.toUpper = d.toUpper) (by decide) hChar hLower

theorem denotes_of_lower_eq {token : Text} {a : Attribute}
    (h : Text.lower token = Text.lower a.keyword) : AttributeType.Denotes token a.keyword := by
  have hUpper : Text.upper token = a.keyword :=
    calc
      Text.upper token = Text.upper (Text.lower token) := by
        rw [Text.upper, Text.upper, Text.lower, List.map_map]
        apply List.map_congr_left
        intro c hc
        exact (isAlpha_and_toUpper_of_mem h hc).2.symm
      _ = Text.upper (Text.lower a.keyword) := by rw [h]
      _ = a.keyword := by cases a <;> rfl
  cases token with
  | nil =>
      cases a <;> cases h
  | cons c s =>
      rw [← hUpper]
      refine .keyword (isAlpha_and_toUpper_of_mem h List.mem_cons_self).1 ?_
      intro d hd
      have hAlpha := (isAlpha_and_toUpper_of_mem h (List.mem_cons_of_mem c hd)).1
      exact .inl (AttributeType.isAlphanum_of_isAlpha hAlpha)

/-- What a token looks like that denotes an attribute: the keyword in any letter case, or digits
that spell the identifier, with or without a label. -/
inductive IsToken (a : Attribute) : Text → Prop where
  | keyword {token : Text} :
      Text.lower token = Text.lower a.keyword → IsToken a token
  | dotted {s : Text} :
      ObjectId.SpellsArcs s a.oid.arcs → IsToken a s
  | labelled {label s : Text} :
      AttributeType.IsLabel label → ObjectId.SpellsArcs s a.oid.arcs → IsToken a (label ++ s)

theorem ofToken?_of_spellsArcs {s : Text} {a : Attribute}
    (h : ObjectId.SpellsArcs s a.oid.arcs) : ofToken? s = some a := by
  rw [ofToken?_of_isDottedDigits h.isDottedDigits, ofDotted?_eq_some_oid_iff.2 h]
  exact ofOid?_eq_some_iff.2 rfl

theorem IsToken.of_ofToken? {token : Text} {a : Attribute} (h : ofToken? token = some a) :
    IsToken a token := by
  rw [ofToken?.eq_def] at h
  split at h
  · exact .keyword (ofKeyword?_eq_some_iff.1 h)
  · rename_i c s hRest
    split at h
    · rcases Option.bind_eq_some_iff.1 h with ⟨oid, hDotted, hOid⟩
      rcases ofOid?_eq_some_iff.1 hOid with rfl
      have hSpells := ofDotted?_eq_some_oid_iff.1 hDotted
      rw [← hRest] at hSpells
      rcases AttributeType.withoutOidLabel_cases token with hSame | ⟨label, hLabel, hToken⟩
      · rw [hSame] at hSpells
        exact .dotted hSpells
      · rw [hToken]
        exact .labelled hLabel hSpells
    · exact .keyword (ofKeyword?_eq_some_iff.1 h)

theorem ofToken?_eq_some_iff {token : Text} {a : Attribute} :
    ofToken? token = some a ↔ IsToken a token := by
  constructor
  · exact IsToken.of_ofToken?
  · intro h
    cases h with
    | keyword hLower =>
        rw [← ofToken?_of_denotes (denotes_of_lower_eq hLower)]
        exact a.ofToken?_keyword
    | dotted hSpells =>
        exact ofToken?_of_spellsArcs hSpells
    | labelled hLabel hSpells =>
        rw [ofToken?_label_append hLabel hSpells.isDottedDigits]
        exact ofToken?_of_spellsArcs hSpells

/-- The look-up of an identifier that is read from dotted text compares its octets. -/
theorem ofOid?_eq_some_iff_toContents {s : Text} {oid : ObjectId} {a : Attribute}
    (h : ObjectId.ofDotted? s = some oid) :
    ofOid? oid = some a ↔ oid.toContents = a.oid.toContents := by
  rw [ofOid?_eq_some_iff]
  constructor
  · rintro rfl
    rfl
  · intro hSame
    rcases ObjectId.ofDotted?_eq_some_iff.1 h with ⟨-, hBounds, hAdmissible⟩
    have hArcs : a.oid.arcs ≠ [] := List.cons_ne_nil _ _
    have hOwn := ofDotted?_eq_some_oid_iff.2 (ObjectId.spellsArcs_toDotted hArcs)
    rcases ObjectId.ofDotted?_eq_some_iff.1 hOwn with ⟨-, hOwnBounds, hOwnAdmissible⟩
    exact ObjectId.toContents_inj hAdmissible hOwnAdmissible hBounds hOwnBounds hSame

/-- A token denotes an attribute exactly if it is the keyword in some letter case, or if it spells
the arcs of the identifier, where a label in front and zeros in front of the arcs change nothing and
identifiers are compared by their octets. A type that is read denotes the same attribute as its
token, and it is read as itself. -/
theorem types_resolve :
    (∀ token a, ofToken? token = some a ↔ IsToken a token) ∧
    (∀ s oid a, ObjectId.ofDotted? s = some oid →
      (ofOid? oid = some a ↔ oid.toContents = a.oid.toContents)) ∧
    ∀ raw t, AttributeType.read raw = .ok t →
      ofToken? t = ofToken? (Text.trim Unicode.isWhiteSpace raw) ∧ AttributeType.read t = .ok t := by
  refine ⟨fun token a => ofToken?_eq_some_iff, fun s oid a => ofOid?_eq_some_iff_toContents, ?_⟩
  intro raw t hRead
  have hDenotes := AttributeType.read_eq_ok_iff_trim.1 hRead
  refine ⟨ofToken?_of_denotes hDenotes, AttributeType.read_eq_ok_iff.2 ?_⟩
  exact ⟨[], t, [], (List.append_nil t).symm, hDenotes.self, List.forall_mem_nil _,
    List.forall_mem_nil _⟩

/-- White space, a label and leading zeros around the identifier of the organisation. -/
theorem types_resolve_leading_zeros :
    let raw := "\toid.02.5.004.0010 ".toList
    let t := "02.5.004.0010".toList
    let token := "oid.02.5.004.0010".toList
    AttributeType.read raw = .ok t ∧ ofToken? t = ofToken? token ∧ AttributeType.read t = .ok t ∧
      IsToken .organisation token ∧ ObjectId.ofDotted? t = some (oid .organisation) ∧
        (ofOid? (oid .organisation) = some .country ↔
          (oid .organisation).toContents = (oid .country).toContents) := by
  intro raw t token
  have hRead : AttributeType.read raw = .ok t := by decide
  have hDotted : ObjectId.ofDotted? t = some (oid .organisation) := by decide
  have hTrim : Text.trim Unicode.isWhiteSpace raw = token := by decide
  rcases types_resolve with ⟨hToken, hOid, hTypes⟩
  rcases hTypes raw t hRead with ⟨hSame, hAgain⟩
  rw [hTrim] at hSame
  exact ⟨hRead, hSame, hAgain, (hToken token .organisation).1 (by decide), hDotted,
    hOid t _ .country hDotted⟩

end Attribute
end MemberNames
