import MemberNames.Proofs.Text.Escape
import MemberNames.Proofs.Text.Hex
import MemberNames.Rdn.Value

/-!
# Lexemes and what they denote

Lexemes are what a quoted or unquoted value is written in: a character, an escaped character, or an
octet as a backslash and two hex digits. Every text without a faulty escape is written in exactly
one way. Lexemes denote text as soon as every run of octets among them is UTF-8.

* `Lexeme.Written`, `Lexeme.list_eq_of_written`: a text and its lexemes
* `Lexeme.Denotes`: what lexemes denote
* `Lexeme.denotes_octets_append_iff`: a run of octets is read as a whole
-/

namespace MemberNames
namespace Lexeme

/-! ## Written form -/

/-- A text and its lexemes, none of them faulty. -/
inductive Written : Text → List Lexeme → Prop where
  | nil :
      Written [] []
  | char {c : Char} {s : Text} {ls : List Lexeme} :
      c ≠ '\\' → Written s ls → Written (c :: s) (.char c :: ls)
  | escaped {c : Char} {s : Text} {ls : List Lexeme} :
      isEscapable c → Written s ls → Written ('\\' :: c :: s) (.escaped c :: ls)
  | octet {c d : Char} {b : UInt8} {s : Text} {ls : List Lexeme} :
      Hex.octet? c d = some b → Written s ls → Written ('\\' :: c :: d :: s) (.octet b :: ls)

theorem list_char {c : Char} (h : c ≠ '\\') (s : Text) : list (c :: s) = .char c :: list s := by
  rw [list.eq_def]
  simp only [h, if_false]

/-- No escapable character is a hex digit, so that an escape has one reading. -/
theorem digit?_of_isEscapable {c : Char} (h : isEscapable c) : Hex.digit? c = none := by
  have hAll : [',', '+', '=', '"', '\\', '<', '>', ';', '#', ' '].all
      fun d => Hex.digit? d = none := by
    decide
  have hc := List.all_eq_true.1 hAll c (List.contains_iff_mem.1 h)
  exact of_decide_eq_true hc

theorem list_escaped {c : Char} (h : isEscapable c) (s : Text) :
    list ('\\' :: c :: s) = .escaped c :: list s := by
  rw [list.eq_def]
  simp only [if_true, digit?_of_isEscapable h, h]

theorem list_octet {c d : Char} {b : UInt8} (h : Hex.octet? c d = some b) (s : Text) :
    list ('\\' :: c :: d :: s) = .octet b :: list s := by
  simp only [Hex.octet?, Option.bind_eq_bind, Option.bind_eq_some_iff, Option.pure_def,
    Option.some.injEq] at h
  rcases h with ⟨high, hHigh, low, hLow, rfl⟩
  rw [list.eq_def]
  simp only [if_true, hHigh, hLow]

theorem list_append_of_written {s : Text} {ls : List Lexeme} (h : Written s ls) (t : Text) :
    list (s ++ t) = ls ++ list t := by
  induction h with
  | nil => rfl
  | @char c s ls hc _ ih =>
      calc
        list (c :: (s ++ t)) = .char c :: list (s ++ t) := list_char hc _
        _ = .char c :: (ls ++ list t) := by rw [ih]
  | @escaped c s ls hc _ ih =>
      calc
        list ('\\' :: c :: (s ++ t)) = .escaped c :: list (s ++ t) := list_escaped hc _
        _ = .escaped c :: (ls ++ list t) := by rw [ih]
  | @octet c d b s ls hb _ ih =>
      calc
        list ('\\' :: c :: d :: (s ++ t)) = .octet b :: list (s ++ t) := list_octet hb _
        _ = .octet b :: (ls ++ list t) := by rw [ih]

theorem list_eq_of_written {s : Text} {ls : List Lexeme} (h : Written s ls) : list s = ls := by
  have hAppend := list_append_of_written h []
  rw [List.append_nil] at hAppend
  rw [hAppend, list, List.append_nil]

theorem written_list {s : Text} (h : ∀ d, .faulty d ∉ list s) : Written s (list s) := by
  fun_induction list s with
  | case1 =>
      exact .nil
  -- An escape that is none has a faulty lexeme.
  | case2 | case3 | case5 | case7 =>
      exact absurd List.mem_cons_self (h _)
  | case4 c high hHigh d s low hLow ih =>
      have hOctet : Hex.octet? c d = some (UInt8.ofNat (16 * high + low)) := by
        rw [Hex.octet?, hHigh, hLow]
        rfl
      exact .octet hOctet (ih fun e he => h e (List.mem_cons_of_mem _ he))
  | case6 c s hDigit hEscapable ih =>
      exact .escaped hEscapable (ih fun e he => h e (List.mem_cons_of_mem _ he))
  | case8 c s hc ih =>
      exact .char hc (ih fun e he => h e (List.mem_cons_of_mem _ he))

namespace Written

theorem append {s t : Text} {ls ms : List Lexeme} (hs : Written s ls) (ht : Written t ms) :
    Written (s ++ t) (ls ++ ms) := by
  induction hs with
  | nil => exact ht
  | char hc _ ih => exact .char hc ih
  | escaped hc _ ih => exact .escaped hc ih
  | octet hb _ ih => exact .octet hb ih

/-- A cut between two lexemes is a cut of the text. -/
theorem split {s : Text} {ls ms : List Lexeme} (h : Written s (ls ++ ms)) :
    ∃ t u, s = t ++ u ∧ Written t ls ∧ Written u ms := by
  induction ls generalizing s with
  | nil =>
      exact ⟨[], s, rfl, .nil, h⟩
  | cons l ls ih =>
      cases h with
      | char hc hs =>
          rcases ih hs with ⟨t, u, rfl, ht, hu⟩
          exact ⟨_, u, rfl, .char hc ht, hu⟩
      | escaped hc hs =>
          rcases ih hs with ⟨t, u, rfl, ht, hu⟩
          exact ⟨_, u, rfl, .escaped hc ht, hu⟩
      | octet hb hs =>
          rcases ih hs with ⟨t, u, rfl, ht, hu⟩
          exact ⟨_, u, rfl, .octet hb ht, hu⟩

end Written

/-! ## Meaning -/

/-- The character that a lexeme stands for by itself. -/
def character? : Lexeme → Option Char
  | .char c | .escaped c => some c
  | .octet _ | .faulty _ => none

/-- The text that lexemes denote. A run of octets denotes the text that has it as UTF-8. -/
inductive Denotes : List Lexeme → Text → Prop where
  | nil :
      Denotes [] []
  | cons {l : Lexeme} {c : Char} {ls : List Lexeme} {v : Text} :
      l.character? = some c → Denotes ls v → Denotes (l :: ls) (c :: v)
  | octets (t : Text) {ls : List Lexeme} {v : Text} :
      Denotes ls v → Denotes ((Utf8.encode t).map .octet ++ ls) (t ++ v)

theorem map_octet_inj {bs bs' : Octets} (h : bs.map Lexeme.octet = bs'.map Lexeme.octet) :
    bs = bs' := by
  refine (List.map_inj_right ?_).1 h
  intro b b' hb
  cases hb
  rfl

theorem character?_of_mem_map_octet {bs : Octets} {l : Lexeme} (h : l ∈ bs.map .octet) :
    l.character? = none := by
  rcases List.mem_map.1 h with ⟨b, -, rfl⟩
  rfl

/-- A run of octets is read as a whole if it ends the lexemes or a character follows it. -/
theorem denotes_octets_append_iff {bs : Octets} {ls : List Lexeme} {v : Text}
    (hEnd : ∀ l, ls.head? = some l → l.character?.isSome) :
    Denotes (bs.map .octet ++ ls) v ↔ ∃ t u, Utf8.encode t = bs ∧ Denotes ls u ∧ v = t ++ u := by
  constructor
  · intro h
    generalize hAll : bs.map Lexeme.octet ++ ls = all at h
    -- By induction on the derivation, whose runs need not be the whole run `bs`.
    induction h generalizing bs with
    | nil =>
        rcases List.append_eq_nil_iff.1 hAll with ⟨hBs, rfl⟩
        exact ⟨[], [], (List.map_eq_nil_iff.1 hBs).symm, .nil, rfl⟩
    | @cons l c ls' u hl hu ih =>
        cases bs with
        | nil =>
            subst hAll
            exact ⟨[], c :: u, rfl, .cons hl hu, rfl⟩
        | cons b bs =>
            -- The run would begin with a lexeme that is a character.
            cases hAll
            cases hl
    | @octets t ls' u hu ih =>
        -- Either the run ends with `t`, because no octet follows it, or it goes on behind `t`.
        rcases List.append_eq_append_iff.1 hAll with ⟨more, hRun, hLs⟩ | ⟨more, hRun, hRest⟩
        · have hMore : more = [] := by
            cases more with
            | nil =>
                rfl
            | cons l more =>
                have hMem : l ∈ (Utf8.encode t).map Lexeme.octet := by
                  rw [hRun]
                  exact List.mem_append_right _ List.mem_cons_self
                have hSome := hEnd l (by rw [hLs]; rfl)
                rw [character?_of_mem_map_octet hMem] at hSome
                cases hSome
          subst hMore
          rw [List.append_nil] at hRun
          refine ⟨t, u, map_octet_inj hRun, ?_, rfl⟩
          rw [hLs]
          exact hu
        · rcases List.map_eq_append_iff.1 hRun with ⟨front, back, rfl, hFront, rfl⟩
          rcases ih hRest.symm with ⟨t', u', hBack, hu', rfl⟩
          refine ⟨t ++ t', u', ?_, hu', (List.append_assoc _ _ _).symm⟩
          rw [Utf8.encode_append, hBack, map_octet_inj hFront]
  · intro h
    rcases h with ⟨t, u, rfl, hu, rfl⟩
    exact .octets t hu

theorem denotes_nil_iff {v : Text} : Denotes [] v ↔ v = [] := by
  constructor
  · intro h
    generalize hAll : ([] : List Lexeme) = all at h
    induction h with
    | nil =>
        rfl
    | cons _ _ _ =>
        cases hAll
    | @octets t ls u _ ih =>
        -- An empty run denotes the empty text.
        rcases List.append_eq_nil_iff.1 hAll.symm with ⟨hRun, hLs⟩
        have ht : t = [] := Utf8.encode_injective (List.map_eq_nil_iff.1 hRun)
        rw [ht, ih hLs.symm, List.append_nil]
  · rintro rfl
    exact .nil

theorem denotes_cons_iff {l : Lexeme} {c : Char} {ls : List Lexeme} {v : Text}
    (hl : l.character? = some c) : Denotes (l :: ls) v ↔ ∃ u, Denotes ls u ∧ v = c :: u := by
  constructor
  · intro h
    generalize hAll : l :: ls = all at h
    induction h with
    | nil =>
        cases hAll
    | @cons l' c' ls' u hl' hu _ =>
        rcases List.cons.inj hAll with ⟨rfl, rfl⟩
        rcases Option.some.inj (hl.symm.trans hl') with rfl
        exact ⟨u, hu, rfl⟩
    | @octets t ls' u _ ih =>
        -- Only an empty run can stand in front of a character.
        cases hRun : Utf8.encode t with
        | nil =>
            have ht : t = [] := Utf8.encode_injective hRun
            rw [hRun] at hAll
            rw [ht]
            exact ih hAll
        | cons b bs =>
            rw [hRun] at hAll
            rcases List.cons.inj hAll with ⟨rfl, -⟩
            cases hl
  · intro h
    rcases h with ⟨u, hu, rfl⟩
    exact .cons hl hu

theorem denotes_octets_iff {bs : Octets} {v : Text} :
    Denotes (bs.map .octet) v ↔ Utf8.encode v = bs := by
  have hAppend : Denotes (bs.map .octet ++ []) v ↔
      ∃ t u, Utf8.encode t = bs ∧ Denotes [] u ∧ v = t ++ u :=
    denotes_octets_append_iff (by intro l hl; cases hl)
  rw [List.append_nil] at hAppend
  rw [hAppend]
  constructor
  · intro h
    rcases h with ⟨t, u, ht, hu, rfl⟩
    rw [denotes_nil_iff.1 hu, List.append_nil, ht]
  · intro hv
    exact ⟨v, [], hv, .nil, (List.append_nil v).symm⟩

theorem denotes_octets_cons_iff {bs : Octets} {l : Lexeme} {c : Char} {ls : List Lexeme}
    {v : Text} (hl : l.character? = some c) :
    Denotes (bs.map .octet ++ l :: ls) v ↔
      ∃ t u, Utf8.encode t = bs ∧ Denotes ls u ∧ v = t ++ c :: u := by
  have hEnd : ∀ l', (l :: ls).head? = some l' → l'.character?.isSome := by
    intro l' hl'
    rcases Option.some.inj hl' with rfl
    rw [hl]
    rfl
  rw [denotes_octets_append_iff hEnd]
  constructor
  · intro h
    rcases h with ⟨t, u, ht, hu, rfl⟩
    rcases (denotes_cons_iff hl).1 hu with ⟨u', hu', rfl⟩
    exact ⟨t, u', ht, hu', rfl⟩
  · intro h
    rcases h with ⟨t, u, ht, hu, rfl⟩
    exact ⟨t, c :: u, ht, (denotes_cons_iff hl).2 ⟨u, hu, rfl⟩, rfl⟩

end Lexeme
end MemberNames
