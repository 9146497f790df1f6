import MemberNames.Json
import MemberNames.Proofs.Text.Utf8
import MemberNames.Text.Hex

/-!
# JSON objects read back

A reader of JSON objects whose values are texts. It takes white space around tokens, every escape
of the format and surrogate pairs, of which the compact form makes little use. What is written in
compact form is read back character for character, and stands on one line.

* `Json.tokens?`, `Json.object?`: the reader
* `Json.tokens?_quote`: a text between quotes
* `Json.object?_render`, `Json.newline_not_mem_render`: an object of texts in compact form
-/

namespace MemberNames
namespace Json

/-! ## Reader -/

inductive Token where
  /-- A brace, a colon or a comma. -/
  | mark (c : Char)
  | text (s : Text)
  deriving DecidableEq, Repr

def isMark (c : Char) : Bool :=
  ['\x7b', '\x7d', ':', ','].contains c

def isSpace (c : Char) : Bool :=
  [' ', '\t', '\n', '\r'].contains c

/-- The character that an escape of one letter or sign stands for. -/
def named? : Char → Option Char
  | '"' => some '"'
  | '\\' => some '\\'
  | '/' => some '/'
  | 'b' => some '\x08'
  | 'f' => some '\x0c'
  | 'n' => some '\n'
  | 'r' => some '\r'
  | 't' => some '\t'
  | _ => none

/-- The code unit that four hex digits stand for. -/
def unit? (a b c d : Char) : Option Nat := do
  let high ← Hex.octet? a b
  let low ← Hex.octet? c d
  return 256 * high.toNat + low.toNat

/-- The character that a surrogate pair stands for. -/
def pair? (high low : Nat) : Option Char :=
  if 0xDC00 ≤ low ∧ low < 0xE000 then
    some (Char.ofNat (0x10000 + 1024 * (high - 0xD800) + (low - 0xDC00)))
  else none

/-- A character in front of a text that has been read. -/
def extend (c : Char) : Text × List Token → Text × List Token
  | (s, ts) => (c :: s, ts)

mutual

/-- The tokens of a text. -/
def tokens? : Text → Option (List Token)
  | [] => some []
  | c :: s =>
    if c = '"' then (readText s).map fun (t, ts) => .text t :: ts
    else if isMark c then (tokens? s).map (.mark c :: ·)
    else if isSpace c then tokens? s
    else none

/-- The text up to its closing quote, and the tokens behind it. -/
def readText : Text → Option (Text × List Token)
  | [] => none
  | c :: s =>
    if c = '"' then (tokens? s).map fun ts => ([], ts)
    else if c = '\\' then
      match s with
      | 'u' :: a :: b :: c :: d :: s =>
        match unit? a b c d with
        | none => none
        | some high =>
          if 0xD800 ≤ high ∧ high < 0xDC00 then
            match s with
            | '\\' :: 'u' :: a :: b :: c :: d :: s =>
              match (unit? a b c d).bind (pair? high) with
              | none => none
              | some c => (readText s).map (extend c)
            | _ => none
          else
            match Utf8.scalar? 0 high with
            | none => none
            | some c => (readText s).map (extend c)
      | e :: s =>
        match named? e with
        | none => none
        | some c => (readText s).map (extend c)
      | [] => none
    else if c.toNat < 0x20 then none
    else (readText s).map (extend c)

end

/-- The members of an object, from behind its opening brace on. -/
def members? : List Token → Option (List (Text × Text))
  | [.text key, .mark ':', .text value, .mark '\x7d'] => some [(key, value)]
  | .text key :: .mark ':' :: .text value :: .mark ',' :: ts =>
    (members? ts).map ((key, value) :: ·)
  | _ => none

/-- The members of an object whose values are texts, in their order. -/
def object? (s : Text) : Option (List (Text × Text)) :=
  match tokens? s with
  | some (.mark '\x7b' :: ts) => if ts = [.mark '\x7d'] then some [] else members? ts
  | _ => none

/-! ## Texts -/

/-- The characters that have an escape of one letter or sign. -/
def isNamed (c : Char) : Bool :=
  ['"', '\\', '\n', '\r', '\t', '\x08', '\x0c'].contains c

/-- How a character is written: by an escape with a name, by its code unit, or as it is. -/
theorem escape_cases (c : Char) :
    (∃ e, escape c = ['\\', e] ∧ e ≠ 'u' ∧ e ≠ '\n' ∧ named? e = some c) ∨
      (c.toNat < 0x20 ∧ escape c =
        ['\\', 'u', '0', '0', Nat.digitChar (c.toNat / 16), Nat.digitChar (c.toNat % 16)]) ∨
      (escape c = [c] ∧ c ≠ '"' ∧ c ≠ '\\' ∧ ¬ c.toNat < 0x20) := by
  by_cases hNamed : isNamed c
  · simp only [isNamed, List.contains_eq_mem, List.mem_cons, List.not_mem_nil, or_false,
      decide_eq_true_eq] at hNamed
    rcases hNamed with rfl | rfl | rfl | rfl | rfl | rfl | rfl <;>
      exact .inl ⟨_, rfl, by decide, by decide, rfl⟩
  · simp only [isNamed, List.contains_eq_mem, List.mem_cons, List.not_mem_nil, or_false,
      decide_eq_true_eq, not_or] at hNamed
    refine .inr ?_
    simp only [escape, hNamed, if_false]
    by_cases hControl : c.toNat < 0x20
    · rw [if_pos hControl]
      exact .inl ⟨hControl, rfl⟩
    · rw [if_neg hControl]
      exact .inr ⟨rfl, hNamed.1, hNamed.2.1, hControl⟩

/-- The digits of a control character are those of its code unit. -/
theorem unit?_of_lt {n : Nat} (h : n < 0x20) :
    unit? '0' '0' (Nat.digitChar (n / 16)) (Nat.digitChar (n % 16)) = some n := by
  have hAll : ∀ m < 0x20,
      unit? '0' '0' (Nat.digitChar (m / 16)) (Nat.digitChar (m % 16)) = some m := by
    decide
  exact hAll n h

/-- A written character is read as itself, whatever follows it. -/
theorem readText_escape_append (c : Char) (s : Text) :
    readText (escape c ++ s) = (readText s).map (extend c) := by
  rcases escape_cases c with ⟨e, he, hUnit, -, hNamed⟩ | ⟨hControl, hc⟩ |
    ⟨hc, hQuote, hBackslash, hControl⟩
  · rw [he, List.cons_append, List.singleton_append, readText.eq_def]
    simp [hNamed, hUnit]
  · -- The code unit of a control character is no surrogate.
    have hHigh : ¬ (0xD800 ≤ c.toNat ∧ c.toNat < 0xDC00) := by omega
    have hScalar : Utf8.scalar? 0 c.toNat = some c := Utf8.scalar?_toNat (Nat.zero_le _)
    rw [hc, readText.eq_def]
    simp [unit?_of_lt hControl, hHigh, hScalar]
  · rw [hc, List.singleton_append, readText.eq_def]
    simp [hQuote, hBackslash, hControl]

theorem readText_flatMap_escape_append (s rest : Text) :
    readText (s.flatMap escape ++ '"' :: rest) = (tokens? rest).map fun ts => (s, ts) := by
  induction s with
  | nil =>
      rw [List.flatMap_nil, List.nil_append, readText.eq_def]
      exact if_pos rfl
  | cons c s ih =>
      rw [List.flatMap_cons, List.append_assoc, readText_escape_append, ih, Option.map_map]
      rfl

theorem tokens?_quote_append (s rest : Text) :
    tokens? (quote s ++ rest) = (tokens? rest).map (.text s :: ·) := by
  have hQuote : quote s ++ rest = '"' :: (s.flatMap escape ++ '"' :: rest) := by
    simp [quote]
  rw [hQuote, tokens?, if_pos rfl, readText_flatMap_escape_append, Option.map_map]
  rfl

theorem tokens?_mark {c : Char} (h : isMark c) (rest : Text) :
    tokens? (c :: rest) = (tokens? rest).map (.mark c :: ·) := by
  have hQuote : c ≠ '"' := by
    rintro rfl
    cases h
  rw [tokens?, if_neg hQuote, if_pos h]

theorem newline_not_mem_escape (c : Char) : '\n' ∉ escape c := by
  rcases escape_cases c with ⟨e, he, -, hNewline, -⟩ | ⟨hControl, hc⟩ | ⟨hc, -, -, hControl⟩
  · rw [he]
    simpa using Ne.symm hNewline
  · have hDigits : ∀ n < 0x20, Nat.digitChar (n / 16) ≠ '\n' ∧ Nat.digitChar (n % 16) ≠ '\n' := by
      decide
    rcases hDigits c.toNat hControl with ⟨hHigh, hLow⟩
    rw [hc]
    simp [Ne.symm hHigh, Ne.symm hLow]
  · rw [hc, List.mem_singleton]
    rintro rfl
    exact hControl (by decide)

theorem newline_not_mem_quote (s : Text) : '\n' ∉ quote s := by
  have hBody : '\n' ∉ s.flatMap escape := by
    intro h
    rcases List.mem_flatMap.1 h with ⟨c, -, hc⟩
    exact newline_not_mem_escape c hc
  simpa [quote] using hBody

/-! ## Objects of texts -/

/-- An object of texts. -/
def ofTexts (members : List (Text × Text)) : Json :=
  .object (members.map fun (key, value) => (key, .text value))

/-- The tokens of the members of an object and of its closing brace. -/
def memberTokens : List (Text × Text) → List Token
  | [] => [.mark '\x7d']
  | [(key, value)] => [.text key, .mark ':', .text value, .mark '\x7d']
  | (key, value) :: member :: members =>
    .text key :: .mark ':' :: .text value :: .mark ',' :: memberTokens (member :: members)

theorem tokens?_renderFields (members : List (Text × Text)) :
    tokens? (renderFields (members.map fun (key, value) => (key, .text value)) ++ ['\x7d']) =
      some (memberTokens members) := by
  fun_induction memberTokens members with
  | case1 =>
      rfl
  | case2 key value =>
      simp only [List.map_cons, List.map_nil, renderFields, render, List.append_assoc,
        List.cons_append, tokens?_quote_append, tokens?_mark (c := ':') rfl]
      rfl
  | case3 key value member members ih =>
      simp only [List.map_cons, renderFields, render, List.append_assoc,
        List.cons_append, tokens?_quote_append, tokens?_mark (c := ':') rfl,
        tokens?_mark (c := ',') rfl] at ih ⊢
      rw [ih]
      rfl

theorem members?_memberTokens {members : List (Text × Text)} (h : members ≠ []) :
    members? (memberTokens members) = some members := by
  fun_induction memberTokens members with
  | case1 =>
      exact absurd rfl h
  | case2 key value =>
      rfl
  | case3 key value member members ih =>
      rw [members?, ih (List.cons_ne_nil _ _)]
      rfl

theorem memberTokens_ne {member : Text × Text} {members : List (Text × Text)} :
    memberTokens (member :: members) ≠ [.mark '\x7d'] := by
  cases members <;> simp [memberTokens]

/-- An object of texts is read back. -/
theorem object?_render (members : List (Text × Text)) :
    object? (ofTexts members).render = some members := by
  have hTokens : tokens? (ofTexts members).render =
      some (.mark '\x7b' :: memberTokens members) := by
    rw [ofTexts, render, List.cons_append, tokens?_mark (c := '\x7b') rfl, tokens?_renderFields]
    rfl
  cases members with
  | nil =>
      rfl
  | cons member members =>
      rw [object?, hTokens]
      simp only [if_neg memberTokens_ne]
      exact members?_memberTokens (List.cons_ne_nil _ _)

theorem newline_not_mem_renderFields (members : List (Text × Text)) :
    '\n' ∉ renderFields (members.map fun (key, value) => (key, .text value)) := by
  fun_induction memberTokens members with
  | case1 =>
      exact List.not_mem_nil
  | case2 key value =>
      simp [renderFields, render, newline_not_mem_quote]
  | case3 key value member members ih =>
      simpa [renderFields, render, newline_not_mem_quote] using ih

/-- The compact form has no line ends, wherever the texts have some. -/
theorem newline_not_mem_render (members : List (Text × Text)) :
    '\n' ∉ (ofTexts members).render := by
  simpa [ofTexts, render] using newline_not_mem_renderFields members

end Json
end MemberNames
