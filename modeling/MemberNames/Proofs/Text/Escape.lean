import MemberNames.Text.Escape
import Mathlib.Data.List.Basic

/-!
# What the writer of values does

The one pass from left to right writes every character by itself, and asks for quotes whenever a
character is special, the first one is padding or two adjacent ones are. A value that begins and
ends with a quote is another value between quotes, and only such a value loses its quotes when it is
read back.

* `Escape.scan_fst`, `Escape.scan_snd_iff`: the pass
* `Escape.NeedsQuotes`, `Escape.needsQuotes_iff`: what asks for quotes
* `Escape.IsWrapped`, `Escape.unwrap`: values that begin and end with a quote
* `Escape.value_quote`, `Escape.value_of_needsQuotes`, `Escape.value_of_not_needsQuotes`: how each
  value is written
* `Escape.CallsForQuotes`, `Escape.guarded`, `Escape.value_eq_rule`: the same without a pass
-/

namespace MemberNames

theorem Text.isPadding_iff {c : Char} : isPadding c ↔ c = ' ' ∨ c = '\n' := by
  simp [isPadding]

namespace Escape

/-! ## The pass from left to right -/

theorem character_of_not_isSpecial {c : Char} (h : isSpecial c = false) : character c = [c] := by
  have hMarks : ¬ (c = '"' || c = '\\') := by
    intro hMark
    have hCases : c = '"' ∨ c = '\\' := by simpa using hMark
    rcases hCases with rfl | rfl
    · cases h
    · cases h
  rw [character, if_neg hMarks]

theorem flatMap_character_of_not_isSpecial {s : Text} (h : ∀ c ∈ s, isSpecial c = false) :
    s.flatMap character = s := by
  induction s with
  | nil =>
      rfl
  | cons c s ih =>
      rcases List.forall_mem_cons.1 h with ⟨hc, hs⟩
      rw [List.flatMap_cons, character_of_not_isSpecial hc, ih hs]
      rfl

/-- The pass writes every character by itself. -/
theorem scan_fst (atStart afterPadding : Bool) (s : Text) :
    (scan atStart afterPadding s).1 = s.flatMap character := by
  fun_induction scan atStart afterPadding s with
  | case1 =>
      rfl
  | case2 atStart afterPadding c s hPlain written quotes hScan ih =>
      -- A character outside both classes is copied, and no quote or backslash is outside both.
      have hSpecial : isSpecial c = false := by
        simp only [Bool.and_eq_true, Bool.not_eq_true'] at hPlain
        exact hPlain.2
      rw [hScan] at ih
      rw [List.flatMap_cons, character_of_not_isSpecial hSpecial, ← ih]
      rfl
  | case3 atStart afterPadding c s hPlain padding written quotes hScan ih =>
      rw [hScan] at ih
      rw [List.flatMap_cons, ← ih]

theorem character_eq (c : Char) : ∃ front, character c = front ++ [c] := by
  rw [character]
  split
  · exact ⟨['\\'], rfl⟩
  · exact ⟨[], rfl⟩

/-- Nothing is written behind the last character. -/
theorem getLast?_flatMap_character (s : Text) : (s.flatMap character).getLast? = s.getLast? := by
  rcases List.eq_nil_or_concat s with rfl | ⟨s, c, rfl⟩
  · rfl
  · rcases character_eq c with ⟨front, hc⟩
    simp [hc, ← List.append_assoc]

/-! ## When quotes are needed -/

/-- What asks for quotes around a value. -/
inductive NeedsQuotes (v : Text) : Prop where
  | special {c : Char} :
      c ∈ v → isSpecial c → NeedsQuotes v
  | first {c : Char} :
      v.head? = some c → Text.isPadding c → NeedsQuotes v
  | last {c : Char} :
      v.getLast? = some c → Text.isPadding c → NeedsQuotes v
  | adjacent {c d : Char} :
      [c, d] <:+: v → Text.isPadding c → Text.isPadding d → NeedsQuotes v

/-- A character outside both classes that the pass knows is no padding either. -/
theorem isPadding_of_isPlain {c : Char} (h : !isPrintableStringChar c && !isSpecial c) :
    Text.isPadding c = false ∧ isSpecial c = false := by
  simp only [Bool.and_eq_true, Bool.not_eq_true'] at h
  refine ⟨?_, h.2⟩
  rw [Bool.eq_false_iff]
  intro hPadding
  rcases Text.isPadding_iff.1 hPadding with rfl | rfl
  · cases h.1
  · cases h.2

theorem exists_adjacent_cons_iff {c : Char} {s : Text} :
    (∃ a b, [a, b] <:+: c :: s ∧ Text.isPadding a ∧ Text.isPadding b) ↔
      (Text.isPadding c ∧ ∃ d, s.head? = some d ∧ Text.isPadding d) ∨
        ∃ a b, [a, b] <:+: s ∧ Text.isPadding a ∧ Text.isPadding b := by
  constructor
  · rintro ⟨a, b, hInfix, ha, hb⟩
    rcases List.infix_cons_iff.1 hInfix with hPrefix | hInfix
    · rcases List.cons_prefix_cons.1 hPrefix with ⟨rfl, ⟨rest, rfl⟩⟩
      exact .inl ⟨ha, b, rfl, hb⟩
    · exact .inr ⟨a, b, hInfix, ha, hb⟩
  · rintro (⟨hc, d, hd, hPadding⟩ | ⟨a, b, hInfix, ha, hb⟩)
    · rcases List.head?_eq_some_iff.1 hd with ⟨rest, rfl⟩
      exact ⟨c, d, ⟨[], rest, rfl⟩, hc, hPadding⟩
    · exact ⟨a, b, List.infix_cons hInfix, ha, hb⟩

/-- The pass asks for quotes because of a special character, because of padding in front or because
of two adjacent characters of padding. -/
theorem scan_snd_iff {atStart afterPadding : Bool} {s : Text} :
    (scan atStart afterPadding s).2 ↔
      (∃ c ∈ s, isSpecial c) ∨
        ((atStart ∨ afterPadding) ∧ ∃ c, s.head? = some c ∧ Text.isPadding c) ∨
          ∃ a b, [a, b] <:+: s ∧ Text.isPadding a ∧ Text.isPadding b := by
  fun_induction scan atStart afterPadding s with
  | case1 =>
      simp
  | case2 atStart afterPadding c s hPlain written quotes hScan ih =>
      rcases isPadding_of_isPlain hPlain with ⟨hPadding, hSpecial⟩
      rw [hScan] at ih
      rw [exists_adjacent_cons_iff]
      simpa [hPadding, hSpecial] using ih
  | case3 atStart afterPadding c s hPlain padding written quotes hScan ih =>
      rw [hScan] at ih
      have hHead : (∃ d, (c :: s).head? = some d ∧ Text.isPadding d) ↔ Text.isPadding c := by
        simp
      -- Each of the four reasons is one about `c` or one about what follows.
      simp only [Bool.or_eq_true, Bool.and_eq_true, ih, exists_adjacent_cons_iff, hHead,
        List.exists_mem_cons_iff]
      constructor
      · rintro ((hSpecial | ⟨hPadding, hState⟩) | hSpecial | ⟨hPadding | hPadding, hNext⟩ | hInfix)
        · exact .inl (.inl hSpecial)
        · exact .inr (.inl ⟨hState, hPadding⟩)
        · exact .inl (.inr hSpecial)
        · cases hPadding
        · exact .inr (.inr (.inl ⟨hPadding, hNext⟩))
        · exact .inr (.inr (.inr hInfix))
      · rintro ((hSpecial | hSpecial) | ⟨hState, hPadding⟩ | ⟨hPadding, hNext⟩ | hInfix)
        · exact .inl (.inl hSpecial)
        · exact .inr (.inl hSpecial)
        · exact .inl (.inr ⟨hPadding, hState⟩)
        · exact .inr (.inr (.inl ⟨.inr hPadding, hNext⟩))
        · exact .inr (.inr (.inr hInfix))

theorem needsQuotes_iff {v : Text} :
    NeedsQuotes v ↔ (scan true false v).2 || v.getLast?.any Text.isPadding := by
  rw [Bool.or_eq_true, scan_snd_iff]
  constructor
  · rintro (⟨hMem, hSpecial⟩ | ⟨hFirst, hPadding⟩ | ⟨hLast, hPadding⟩ | ⟨hInfix, ha, hb⟩)
    · exact .inl (.inl ⟨_, hMem, hSpecial⟩)
    · exact .inl (.inr (.inl ⟨.inl rfl, _, hFirst, hPadding⟩))
    · exact .inr (by simpa [hLast] using hPadding)
    · exact .inl (.inr (.inr ⟨_, _, hInfix, ha, hb⟩))
  · rintro ((⟨c, hMem, hSpecial⟩ | ⟨-, c, hFirst, hPadding⟩ | ⟨a, b, hInfix, ha, hb⟩) | hLast)
    · exact .special hMem hSpecial
    · exact .first hFirst hPadding
    · exact .adjacent hInfix ha hb
    · cases hc : v.getLast? with
      | none =>
          simp [hc] at hLast
      | some c =>
          exact .last hc (by simpa [hc] using hLast)

instance (v : Text) : Decidable (NeedsQuotes v) :=
  decidable_of_iff _ needsQuotes_iff.symm

/-! ## Values that begin and end with a quote -/

theorem wrapped?_eq_some_iff {v inner : Text} : wrapped? v = some inner ↔ v = quote inner := by
  constructor
  · intro h
    rw [wrapped?.eq_def] at h
    split at h
    · rename_i s
      split at h
      · rename_i hLast
        rcases Option.some.inj h with rfl
        rcases List.getLast?_eq_some_iff.1 hLast with ⟨front, rfl⟩
        rw [quote, List.dropLast_concat, List.cons_append]
      · cases h
    · cases h
  · rintro rfl
    rw [quote, List.cons_append, wrapped?, List.getLast?_concat, if_pos rfl, List.dropLast_concat]

/-- Whether a value begins and ends with a quote, which are two different ones. -/
def IsWrapped (v : Text) : Prop :=
  2 ≤ v.length ∧ v.head? = some '"' ∧ v.getLast? = some '"'

instance (v : Text) : Decidable (IsWrapped v) :=
  inferInstanceAs (Decidable (_ ∧ _ ∧ _))

/-- The value without the two quotes that it begins and ends with, if there are two. -/
def unwrap (v : Text) : Text :=
  if IsWrapped v then v.tail.dropLast else v

theorem isWrapped_quote (s : Text) : IsWrapped (quote s) := by
  refine ⟨?_, rfl, ?_⟩
  · simp [quote]
  · rw [quote, List.getLast?_concat]

theorem IsWrapped.eq_quote {v : Text} (h : IsWrapped v) : v = quote v.tail.dropLast := by
  rcases h with ⟨hLength, hHead, hLast⟩
  rcases List.head?_eq_some_iff.1 hHead with ⟨s, rfl⟩
  rcases List.getLast?_eq_some_iff.1 hLast with ⟨front, hFront⟩
  cases front with
  | nil =>
      -- A single quote is not both the first and the last one.
      rw [hFront] at hLength
      exact absurd hLength (by decide)
  | cons c front =>
      rcases List.cons.inj hFront with ⟨rfl, hTail⟩
      have hInner : s.dropLast = front := by
        rw [hTail]
        exact List.dropLast_concat
      rw [List.tail_cons, hInner]
      exact congrArg ('"' :: ·) hTail

theorem isWrapped_iff {v : Text} : IsWrapped v ↔ ∃ inner, v = quote inner := by
  constructor
  · intro h
    exact ⟨_, h.eq_quote⟩
  · intro h
    rcases h with ⟨inner, rfl⟩
    exact isWrapped_quote inner

theorem unwrap_quote (inner : Text) : unwrap (quote inner) = inner := by
  rw [unwrap, if_pos (isWrapped_quote inner), quote, List.cons_append, List.tail_cons,
    List.dropLast_concat]

theorem unwrap_of_not_isWrapped {v : Text} (h : ¬ IsWrapped v) : unwrap v = v :=
  if_neg h

/-- Taking quotes away changes every value that has them. -/
theorem unwrap_eq_self_iff {v : Text} : unwrap v = v ↔ ¬ IsWrapped v := by
  constructor
  · intro hSame hWrapped
    rcases isWrapped_iff.1 hWrapped with ⟨inner, rfl⟩
    rw [unwrap_quote] at hSame
    have hLength := congrArg List.length hSame
    simp only [quote, List.length_cons, List.length_append, List.length_nil] at hLength
    omega
  · exact unwrap_of_not_isWrapped

/-! ## Written values -/

/-- A value that begins and ends with a quote keeps these two. -/
theorem value_quote (inner : Text) : value (quote inner) = quote (inner.flatMap character) := by
  rw [value, wrapped?_eq_some_iff.2 rfl]
  simp only [scan_fst]

/-- Any other value gets quotes exactly if it needs them. -/
theorem value_of_not_isWrapped {v : Text} (h : ¬ IsWrapped v) :
    value v = if NeedsQuotes v then quote (v.flatMap character) else v.flatMap character := by
  have hNone : wrapped? v = none := by
    rw [Option.eq_none_iff_forall_ne_some]
    intro inner hInner
    exact h (isWrapped_iff.2 ⟨inner, wrapped?_eq_some_iff.1 hInner⟩)
  have hScan : value v =
      if (scan true false v).2 || (v.flatMap character).getLast?.any Text.isPadding then
        quote (v.flatMap character)
      else v.flatMap character := by
    rw [value, hNone, ← scan_fst true false]
  rw [hScan, getLast?_flatMap_character]
  simp only [needsQuotes_iff]

theorem value_of_needsQuotes {v : Text} (h : ¬ IsWrapped v) (hNeeds : NeedsQuotes v) :
    value v = quote (v.flatMap character) := by
  rw [value_of_not_isWrapped h, if_pos hNeeds]

/-- A value that needs no quotes has nothing to be escaped either. -/
theorem value_of_not_needsQuotes {v : Text} (h : ¬ IsWrapped v) (hNeeds : ¬ NeedsQuotes v) :
    value v = v := by
  have hSpecial : ∀ c ∈ v, isSpecial c = false := by
    intro c hc
    rw [Bool.eq_false_iff]
    intro hSpecial
    exact hNeeds (.special hc hSpecial)
  rw [value_of_not_isWrapped h, if_neg hNeeds, flatMap_character_of_not_isSpecial hSpecial]

/-- No character that stands for itself asks for quotes. -/
theorem value_of_plain {v : Text} (h : ∀ c ∈ v, isSpecial c = false ∧ Text.isPadding c = false) :
    value v = v := by
  have hPadding : ∀ c ∈ v, ¬ Text.isPadding c := by
    intro c hc
    rw [(h c hc).2]
    decide
  refine value_of_not_needsQuotes ?_ ?_
  · rintro ⟨-, hHead, -⟩
    cases (h '"' (List.mem_of_mem_head? hHead)).1
  · rintro (⟨hMem, hSpecial⟩ | ⟨hFirst, hc⟩ | ⟨hLast, hc⟩ | ⟨hInfix, hc, -⟩)
    · rw [(h _ hMem).1] at hSpecial
      cases hSpecial
    · exact hPadding _ (List.mem_of_mem_head? hFirst) hc
    · exact hPadding _ (List.mem_of_mem_getLast? hLast) hc
    · exact hPadding _ (hInfix.subset List.mem_cons_self) hc

/-- A value is written between quotes, or as it is because nothing in it asks for quotes. -/
theorem value_cases (v : Text) :
    value v = quote ((unwrap v).flatMap character) ∨
      value v = v ∧ unwrap v = v ∧ (∀ c ∈ v, isSpecial c = false) ∧
        (∀ c, v.head? = some c → Text.isPadding c = false) ∧
          ∀ c, v.getLast? = some c → Text.isPadding c = false := by
  by_cases hWrapped : IsWrapped v
  · rcases isWrapped_iff.1 hWrapped with ⟨inner, rfl⟩
    rw [value_quote, unwrap_quote]
    exact .inl rfl
  · rw [unwrap_of_not_isWrapped hWrapped]
    by_cases hNeeds : NeedsQuotes v
    · exact .inl (value_of_needsQuotes hWrapped hNeeds)
    · refine .inr ⟨value_of_not_needsQuotes hWrapped hNeeds, rfl, ?_, ?_, ?_⟩
      · intro c hc
        exact Bool.eq_false_iff.2 fun hSpecial => hNeeds (.special hc hSpecial)
      · intro c hc
        exact Bool.eq_false_iff.2 fun hPadding => hNeeds (.first hc hPadding)
      · intro c hc
        exact Bool.eq_false_iff.2 fun hPadding => hNeeds (.last hc hPadding)

/-! ## The rule without a pass -/

/-- The value with a backslash in front of every quote and every backslash. -/
def guarded (v : Text) : Text :=
  v.flatMap fun c => if c ∈ ['"', '\\'] then ['\\', c] else [c]

theorem flatMap_character_eq_guarded (v : Text) : v.flatMap character = guarded v := by
  have hCharacter : character = fun c => if c ∈ ['"', '\\'] then ['\\', c] else [c] := by
    funext c
    simp [character]
  rw [guarded, hCharacter]

/-- A special character anywhere, or a space or a newline at an end or beside another one. -/
def CallsForQuotes (v : Text) : Prop :=
  (∃ c ∈ v, c ∈ [',', '+', '=', '\n', '<', '>', '#', ';', '\\', '"']) ∨
    (∃ c ∈ [' ', '\n'], v.head? = some c ∨ v.getLast? = some c) ∨
      ∃ c ∈ [' ', '\n'], ∃ d ∈ [' ', '\n'], [c, d] <:+: v

theorem needsQuotes_iff_callsForQuotes {v : Text} : NeedsQuotes v ↔ CallsForQuotes v := by
  have hSpecial : ∀ c, c ∈ [',', '+', '=', '\n', '<', '>', '#', ';', '\\', '"'] ↔ isSpecial c :=
    fun c => List.contains_iff_mem.symm
  have hPadding : ∀ c, c ∈ [' ', '\n'] ↔ Text.isPadding c := by
    intro c
    simp [Text.isPadding_iff]
  simp only [CallsForQuotes, hSpecial, hPadding]
  constructor
  · rintro (⟨hMem, hc⟩ | ⟨hFirst, hc⟩ | ⟨hLast, hc⟩ | ⟨hInfix, hc, hd⟩)
    · exact .inl ⟨_, hMem, hc⟩
    · exact .inr (.inl ⟨_, hc, .inl hFirst⟩)
    · exact .inr (.inl ⟨_, hc, .inr hLast⟩)
    · exact .inr (.inr ⟨_, hc, _, hd, hInfix⟩)
  · rintro (⟨c, hMem, hc⟩ | ⟨c, hc, hFirst | hLast⟩ | ⟨c, hc, d, hd, hInfix⟩)
    · exact .special hMem hc
    · exact .first hFirst hc
    · exact .last hLast hc
    · exact .adjacent hInfix hc hd

instance (v : Text) : Decidable (CallsForQuotes v) :=
  decidable_of_iff _ needsQuotes_iff_callsForQuotes

/-- A value of two characters or more that begins and ends with a quote keeps these two. Any other
value is put between quotes if it calls for them, and is written as it is otherwise. -/
theorem value_eq_rule (v : Text) :
    value v =
      if 2 ≤ v.length ∧ v.head? = some '"' ∧ v.getLast? = some '"' then
        '"' :: guarded v.tail.dropLast ++ ['"']
      else if CallsForQuotes v then '"' :: guarded v ++ ['"']
      else v := by
  split
  · rename_i hEnds
    have hWrapped : IsWrapped v := hEnds
    calc
      value v = value (quote v.tail.dropLast) := congrArg value hWrapped.eq_quote
      _ = quote (v.tail.dropLast.flatMap character) := value_quote _
      _ = quote (guarded v.tail.dropLast) := by rw [flatMap_character_eq_guarded]
  · rename_i hEnds
    have hWrapped : ¬ IsWrapped v := hEnds
    split
    · rename_i hRule
      rw [value_of_needsQuotes hWrapped (needsQuotes_iff_callsForQuotes.2 hRule),
        flatMap_character_eq_guarded, quote]
    · rename_i hRule
      exact value_of_not_needsQuotes hWrapped (mt needsQuotes_iff_callsForQuotes.1 hRule)

end Escape
end MemberNames
