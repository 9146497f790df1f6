import MemberNames.Proofs.Rdn.Lexeme
import MemberNames.Proofs.Result

/-!
# What values denote

Quoted and unquoted values are read lexeme by lexeme into a buffer. Pending octets are read as
characters only when something else follows, and blanks at the end of an unquoted value are taken
back. The invariant of both readers is that the buffer holds the text read so far, and that the
pending octets and the lexemes to come denote the rest of the value.

* `Value.Buffer.flush_eq_ok_iff`, `Value.Buffer.eq_of_flush_eq_error`: pending octets
* `Value.Buffer.Reads`, `Value.Buffer.exists_add_iff`: the invariant and its step
* `Value.readQuoted_eq_ok_iff`: quoted values
* `Value.readUnquoted_eq_ok_iff`: unquoted values
-/

namespace MemberNames
namespace Lexeme

/-- Whether a lexeme may stand in a value that holds only characters of a class verbatim. -/
def isUnit (isVerbatim : Char → Bool) : Lexeme → Bool
  | .char c => isVerbatim c
  | .escaped _ | .octet _ => true
  | .faulty _ => false

theorem isUnit_cases {isVerbatim : Char → Bool} {l : Lexeme} (h : l.isUnit isVerbatim) :
    (∃ o, l = .octet o) ∨ ∃ c, l.character? = some c := by
  cases l with
  | char c => exact .inr ⟨c, rfl⟩
  | escaped c => exact .inr ⟨c, rfl⟩
  | octet o => exact .inl ⟨o, rfl⟩
  | faulty d => cases h

end Lexeme

namespace Value

/-- Whether a character may stand verbatim between quotes. -/
def isQuotable (c : Char) : Bool :=
  c ≠ '"'

/-- Whether a character may stand verbatim in an unquoted value. -/
def isBare (c : Char) : Bool :=
  c ≠ '"' && !isReserved c

/-! ## Buffers -/

namespace Buffer

/-- The buffer after its pending octets were read as `t`. -/
def settle (b : Buffer) (t : Text) : Buffer :=
  if b.pending = [] then b else ⟨b.text ++ t, [], []⟩

theorem text_settle {b : Buffer} {t : Text} (h : Utf8.encode t = b.pending) :
    (b.settle t).text = b.text ++ t := by
  by_cases hPending : b.pending = []
  -- Without pending octets there is nothing to read, and the buffer stays as it is.
  · have ht : t = [] := Utf8.encode_injective (h.trans hPending)
    rw [settle, if_pos hPending, ht, List.append_nil]
  · rw [settle, if_neg hPending, text, List.append_nil]

theorem flush_eq_ok_iff {b b' : Buffer} :
    b.flush = .ok b' ↔ ∃ t, Utf8.encode t = b.pending ∧ b' = b.settle t := by
  by_cases hPending : b.pending = []
  · have hFlush : b.flush = .ok b := by simp [flush, hPending]
    have hSettle : ∀ t, b.settle t = b := fun t => if_pos hPending
    rw [hFlush]
    constructor
    · intro h
      rcases Except.ok.inj h with rfl
      exact ⟨[], hPending.symm, (hSettle []).symm⟩
    · intro h
      rcases h with ⟨t, -, rfl⟩
      rw [hSettle t]
  · have hSettle : ∀ t, b.settle t = ⟨b.text ++ t, [], []⟩ := fun t => if_neg hPending
    simp only [flush, List.isEmpty_iff, hPending, if_false, hSettle]
    constructor
    · intro h
      split at h
      · cases h
      · rename_i t hDecode
        exact ⟨t, Utf8.encode_of_decode? hDecode, (Except.ok.inj h).symm⟩
    · intro h
      rcases h with ⟨t, ht, rfl⟩
      rw [← ht, Utf8.decode?_encode]

/-- Whatever is made of a buffer after its pending octets were read. -/
theorem map_flush_eq_ok_iff {α : Type} {b : Buffer} {f : Buffer → α} {x : α} :
    b.flush.map f = .ok x ↔ ∃ t, Utf8.encode t = b.pending ∧ x = f (b.settle t) := by
  rw [Result.map_eq_ok_iff]
  constructor
  · intro h
    rcases h with ⟨b', hFlush, rfl⟩
    rcases flush_eq_ok_iff.1 hFlush with ⟨t, ht, rfl⟩
    exact ⟨t, ht, rfl⟩
  · intro h
    rcases h with ⟨t, ht, rfl⟩
    exact ⟨b.settle t, flush_eq_ok_iff.2 ⟨t, ht, rfl⟩, rfl⟩

/-- The buffer after its pending octets were read as `t` and a character was added. -/
def added (b : Buffer) (padding : Bool) (t : Text) (c : Char) : Buffer :=
  if padding then ⟨(b.settle t).kept, (b.settle t).loose ++ [c], []⟩
  else ⟨b.text ++ t ++ [c], [], []⟩

theorem text_added {b : Buffer} {t : Text} (h : Utf8.encode t = b.pending) (padding : Bool)
    (c : Char) : (b.added padding t c).text = b.text ++ t ++ [c] := by
  cases padding with
  | true =>
      have hText := text_settle h
      rw [text] at hText
      rw [added, if_pos rfl, text, ← hText, List.append_assoc]
  | false =>
      exact List.append_nil _

theorem pending_added (b : Buffer) (padding : Bool) (t : Text) (c : Char) :
    (b.added padding t c).pending = [] := by
  cases padding with
  | true => rfl
  | false => rfl

theorem keep_eq_ok_iff {b b' : Buffer} {c : Char} :
    b.keep c = .ok b' ↔ ∃ t, Utf8.encode t = b.pending ∧ b' = b.added false t c := by
  rw [keep, map_flush_eq_ok_iff]
  refine exists_congr fun t => and_congr_right fun ht => ?_
  rw [text_settle ht]
  rfl

theorem add_eq_ok_iff {b b' : Buffer} {padding : Bool} {c : Char} :
    (if padding then b.hang c else b.keep c) = .ok b' ↔
      ∃ t, Utf8.encode t = b.pending ∧ b' = b.added padding t c := by
  cases padding with
  | true => exact map_flush_eq_ok_iff
  | false => exact keep_eq_ok_iff

theorem loose_of_keep {b b' : Buffer} {c : Char} (h : b.keep c = .ok b') : b'.loose = [] := by
  rcases keep_eq_ok_iff.1 h with ⟨t, -, rfl⟩
  rfl

/-- Without loose characters that nothing follows, trimming takes nothing away. -/
theorem finishTrimmed_eq_finish {b : Buffer} (h : b.pending = [] → b.loose = []) :
    b.finishTrimmed = b.finish := by
  -- Octets that are read go to the kept text, so that only an idle buffer can have loose text.
  have hKept : ∀ b', b.flush = .ok b' → b'.kept = b'.text := by
    intro b' hFlush
    rcases flush_eq_ok_iff.1 hFlush with ⟨t, -, rfl⟩
    by_cases hPending : b.pending = []
    · have hSettle : b.settle t = b := if_pos hPending
      rw [hSettle, text, h hPending, List.append_nil]
    · have hSettle : b.settle t = ⟨b.text ++ t, [], []⟩ := if_neg hPending
      rw [hSettle]
      exact (List.append_nil _).symm
  rw [finishTrimmed, finish]
  cases hFlush : b.flush with
  | error d => rfl
  | ok b' => exact congrArg Except.ok (hKept b' hFlush)

/-- A loose character at the end is trimmed away. -/
theorem finishTrimmed_of_hang (b : Buffer) (c : Char) :
    (b.hang c >>= finishTrimmed) = b.finishTrimmed := by
  rw [hang, finishTrimmed]
  cases b.flush with
  | error d => rfl
  | ok b' => rfl

/-! ## Filling that fails -/

theorem eq_of_flush_eq_error {b : Buffer} {d : Defect} (h : b.flush = .error d) :
    d = .escapesNotUtf8 := by
  rw [flush] at h
  split at h
  · cases h
  · split at h
    · cases h
      rfl
    · cases h

theorem eq_of_map_flush_eq_error {α : Type} {b : Buffer} {f : Buffer → α} {d : Defect}
    (h : b.flush.map f = .error d) : d = .escapesNotUtf8 :=
  eq_of_flush_eq_error (Result.map_eq_error_iff.1 h)

/-- Any defect but one of pending octets comes from what is read after a buffer was filled. -/
theorem exists_of_bind {α β : Type} {b : Buffer} {f : Buffer → α} {g : α → Except Defect β}
    {d : Defect} (h : (b.flush.map f >>= g) = .error d) (hOctets : d ≠ .escapesNotUtf8) :
    ∃ x, g x = .error d := by
  rcases Result.bind_eq_error_iff.1 h with hFlush | ⟨x, -, hNext⟩
  · exact absurd (eq_of_map_flush_eq_error hFlush) hOctets
  · exact ⟨x, hNext⟩

/-! ## The invariant of reading -/

/-- The text read so far, and what the pending octets and further lexemes denote, make up a
value. -/
def Reads (b : Buffer) (ls : List Lexeme) (v : Text) : Prop :=
  ∃ u, Lexeme.Denotes (b.pending.map .octet ++ ls) u ∧ v = b.text ++ u

theorem reads_empty_iff {ls : List Lexeme} {v : Text} :
    empty.Reads ls v ↔ Lexeme.Denotes ls v := by
  constructor
  · intro h
    rcases h with ⟨u, hu, rfl⟩
    exact hu
  · intro h
    exact ⟨v, h, rfl⟩

theorem finish_eq_ok_iff {b : Buffer} {v : Text} : b.finish = .ok v ↔ b.Reads [] v := by
  rw [finish, map_flush_eq_ok_iff, Reads, List.append_nil]
  refine exists_congr fun t => ?_
  rw [Lexeme.denotes_octets_iff]
  refine and_congr_right fun ht => ?_
  rw [text_settle ht]

theorem reads_pushOctet_iff {b : Buffer} {o : UInt8} {ls : List Lexeme} {v : Text} :
    (b.pushOctet o).Reads ls v ↔ b.Reads (.octet o :: ls) v := by
  have hPending : (b.pushOctet o).pending.map Lexeme.octet ++ ls =
      b.pending.map .octet ++ .octet o :: ls := by
    simp [pushOctet]
  rw [Reads, Reads, hPending]
  rfl

/-- A character settles the pending octets in front of it. -/
theorem exists_add_iff {b : Buffer} (padding : Bool) {l : Lexeme} {c : Char} {ls : List Lexeme}
    {v : Text} (hl : l.character? = some c) :
    (∃ b', (if padding then b.hang c else b.keep c) = .ok b' ∧ b'.Reads ls v) ↔
      b.Reads (l :: ls) v := by
  simp only [add_eq_ok_iff, Reads, Lexeme.denotes_octets_cons_iff hl]
  constructor
  -- The octets denote `t`, the lexeme denotes `c`, and `u` is the rest of the value.
  · intro h
    rcases h with ⟨b', ⟨t, ht, rfl⟩, u, hu, rfl⟩
    rw [pending_added] at hu
    refine ⟨t ++ c :: u, ⟨t, u, ht, hu, rfl⟩, ?_⟩
    simp [text_added ht]
  · intro h
    rcases h with ⟨w, ⟨t, u, ht, hu, rfl⟩, rfl⟩
    refine ⟨_, ⟨t, ht, rfl⟩, u, ?_, ?_⟩
    · rw [pending_added]
      exact hu
    · simp [text_added ht]

end Buffer

/-! ## Quoted values -/

theorem readQuoted_cons {l : Lexeme} {c : Char} (hl : l.character? = some c)
    (hUnit : l.isUnit isQuotable) (b : Buffer) (ls : List Lexeme) :
    readQuoted b (l :: ls) = (b.keep c >>= fun b' => readQuoted b' ls) := by
  cases l with
  | char c' =>
      rcases Option.some.inj hl with rfl
      have hQuote : c' ≠ '"' := by simpa [Lexeme.isUnit, isQuotable] using hUnit
      rw [readQuoted, if_neg hQuote]
  | escaped c' =>
      rcases Option.some.inj hl with rfl
      rw [readQuoted]
  | octet o => cases hl
  | faulty d => cases hl

theorem readQuoted_eq_ok_iff {b : Buffer} {body rest : List Lexeme} {v : Text}
    (hBody : ∀ l ∈ body, l.isUnit isQuotable) :
    readQuoted b (body ++ .char '"' :: rest) = .ok v ↔
      rest.all isPaddingLexeme ∧ b.Reads body v := by
  -- By induction on the body; the buffer changes from step to step, its invariant does not.
  induction body generalizing b with
  | nil =>
      rw [List.nil_append, readQuoted, if_pos rfl]
      by_cases hRest : rest.all isPaddingLexeme
      · rw [if_pos hRest, Buffer.finish_eq_ok_iff]
        exact (and_iff_right hRest).symm
      · rw [if_neg hRest]
        constructor
        · intro h
          cases h
        · intro h
          exact absurd h.1 hRest
  | cons l body ih =>
      rcases List.forall_mem_cons.1 hBody with ⟨hUnit, hTail⟩
      rcases Lexeme.isUnit_cases hUnit with ⟨o, rfl⟩ | ⟨c, hl⟩
      · rw [List.cons_append, readQuoted, ih hTail, Buffer.reads_pushOctet_iff]
      · have hKeep : (∃ b', b.keep c = .ok b' ∧ b'.Reads body v) ↔ b.Reads (l :: body) v :=
          Buffer.exists_add_iff false hl
        rw [List.cons_append, readQuoted_cons hl hUnit, Result.bind_eq_ok_iff, ← hKeep]
        simp only [ih hTail]
        constructor
        · intro h
          rcases h with ⟨b', hKeep, hRest, hReads⟩
          exact ⟨hRest, b', hKeep, hReads⟩
        · intro h
          rcases h with ⟨hRest, b', hKeep, hReads⟩
          exact ⟨b', hKeep, hRest, hReads⟩

/-- A quoted value that is read ends at its first quote, with padding behind it. -/
theorem exists_body_of_readQuoted {b : Buffer} {ls : List Lexeme} {v : Text}
    (h : readQuoted b ls = .ok v) :
    ∃ body rest, ls = body ++ .char '"' :: rest ∧ ∀ l ∈ body, l.isUnit isQuotable := by
  induction ls generalizing b with
  | nil =>
      cases h
  | cons l ls ih =>
      -- A quote ends the body; any other lexeme belongs to it and is followed by the rest.
      by_cases hQuote : l = .char '"'
      · subst hQuote
        exact ⟨[], ls, rfl, by intro l hl; cases hl⟩
      have hStep : ∃ b', readQuoted b' ls = .ok v ∧ l.isUnit isQuotable := by
        cases l with
        | char c =>
            have hc : c ≠ '"' := by
              rintro rfl
              exact hQuote rfl
            rw [readQuoted, if_neg hc] at h
            rcases Result.bind_eq_ok_iff.1 h with ⟨b', -, hRest⟩
            exact ⟨b', hRest, by simpa [Lexeme.isUnit, isQuotable] using hc⟩
        | escaped c =>
            rw [readQuoted] at h
            rcases Result.bind_eq_ok_iff.1 h with ⟨b', -, hRest⟩
            exact ⟨b', hRest, rfl⟩
        | octet o =>
            rw [readQuoted] at h
            exact ⟨_, h, rfl⟩
        | faulty d =>
            cases h
      rcases hStep with ⟨b', hRest, hUnit⟩
      rcases ih hRest with ⟨body, rest, rfl, hBody⟩
      exact ⟨l :: body, rest, rfl, List.forall_mem_cons.2 ⟨hUnit, hBody⟩⟩

/-! ## Unquoted values -/

theorem isBare_of_isPadding {c : Char} (h : Text.isPadding c) : isBare c := by
  rcases Text.isPadding_iff.1 h with rfl | rfl
  · rfl
  · rfl

theorem readUnquoted_cons {l : Lexeme} {c : Char} (hl : l.character? = some c)
    (hUnit : l.isUnit isBare) (b : Buffer) (ls : List Lexeme) :
    readUnquoted b (l :: ls) =
      ((if isPaddingLexeme l then b.hang c else b.keep c) >>= fun b' => readUnquoted b' ls) := by
  cases l with
  | char c' =>
      rcases Option.some.inj hl with rfl
      have hBare : c' ≠ '"' ∧ isReserved c' = false := by
        simpa [Lexeme.isUnit, isBare] using hUnit
      rw [readUnquoted, if_neg hBare.1, if_neg (by rw [hBare.2]; decide)]
      by_cases hPadding : Text.isPadding c'
      · rw [if_pos hPadding, if_pos (by exact hPadding)]
      · rw [if_neg hPadding, if_neg (by exact hPadding)]
  | escaped c' =>
      rcases Option.some.inj hl with rfl
      rw [readUnquoted]
      rfl
  | octet o => cases hl
  | faulty d => cases hl

/-- Padding at the end of an unquoted value is trimmed away. -/
theorem readUnquoted_padding {b : Buffer} {pads : List Lexeme}
    (h : ∀ l ∈ pads, isPaddingLexeme l) : readUnquoted b pads = b.finishTrimmed := by
  induction pads generalizing b with
  | nil =>
      rfl
  | cons l pads ih =>
      rcases List.forall_mem_cons.1 h with ⟨hl, hPads⟩
      cases l with
      | char c =>
          rw [readUnquoted_cons (l := .char c) rfl (isBare_of_isPadding hl), if_pos hl]
          -- The next buffer is trimmed as well, and it has one more loose character.
          have hRest : (fun b' => readUnquoted b' pads) = Buffer.finishTrimmed :=
            funext fun b' => ih hPads
          rw [hRest, Buffer.finishTrimmed_of_hang]
      | escaped c => cases hl
      | octet o => cases hl
      | faulty d => cases hl

/-- An unquoted value denotes what its lexemes in front of the padding at its end denote. -/
theorem readUnquoted_eq_ok_iff {b : Buffer} {core pads : List Lexeme} {v : Text}
    (hCore : ∀ l ∈ core, l.isUnit isBare) (hPads : ∀ l ∈ pads, isPaddingLexeme l)
    (hLast : ∀ l, core.getLast? = some l → isPaddingLexeme l = false)
    (hLoose : core = [] → b.pending = [] → b.loose = []) :
    readUnquoted b (core ++ pads) = .ok v ↔ b.Reads core v := by
  induction core generalizing b with
  | nil =>
      rw [List.nil_append, readUnquoted_padding hPads,
        Buffer.finishTrimmed_eq_finish (hLoose rfl), Buffer.finish_eq_ok_iff]
  | cons l core ih =>
      rcases List.forall_mem_cons.1 hCore with ⟨hUnit, hTail⟩
      have hLast' : ∀ l', core.getLast? = some l' → isPaddingLexeme l' = false := by
        intro l' hl'
        exact hLast l' (by rw [List.getLast?_cons, hl']; rfl)
      rcases Lexeme.isUnit_cases hUnit with ⟨o, rfl⟩ | ⟨c, hl⟩
      -- Behind an octet there is a pending one, so that nothing is asked of loose text.
      · have hLoose' : core = [] → (b.pushOctet o).pending = [] → (b.pushOctet o).loose = [] := by
          intro _ hNil
          exact absurd hNil (List.append_ne_nil_of_right_ne_nil _ (List.cons_ne_nil o []))
        rw [List.cons_append, readUnquoted, ih hTail hLast' hLoose', Buffer.reads_pushOctet_iff]
      · rw [List.cons_append, readUnquoted_cons hl hUnit, Result.bind_eq_ok_iff,
          ← Buffer.exists_add_iff (isPaddingLexeme l) hl]
        refine exists_congr fun b' => and_congr_right fun hAdd => ih hTail hLast' ?_
        -- The last lexeme of the value is not padding, so that nothing is loose behind it.
        rintro rfl -
        rw [hLast l rfl] at hAdd
        exact Buffer.loose_of_keep hAdd

/-- An unquoted value that is read holds no quote and no reserved character verbatim. -/
theorem isUnit_of_readUnquoted {b : Buffer} {ls : List Lexeme} {v : Text}
    (h : readUnquoted b ls = .ok v) : ∀ l ∈ ls, l.isUnit isBare := by
  fun_induction readUnquoted b ls with
  | case1 =>
      intro l hl
      cases hl
  | case2 | case5 | case6 =>
      cases h
  | case3 b o ls ih =>
      exact List.forall_mem_cons.2 ⟨rfl, ih h⟩
  | case4 b c ls ih =>
      rcases Result.bind_eq_ok_iff.1 h with ⟨b', -, hRest⟩
      exact List.forall_mem_cons.2 ⟨rfl, ih b' hRest⟩
  | case7 b c ls hQuote hReserved hPadding ih =>
      rcases Result.bind_eq_ok_iff.1 h with ⟨b', -, hRest⟩
      exact List.forall_mem_cons.2 ⟨isBare_of_isPadding hPadding, ih b' hRest⟩
  | case8 b c ls hQuote hReserved hPadding ih =>
      rcases Result.bind_eq_ok_iff.1 h with ⟨b', -, hRest⟩
      have hBare : isBare c := by simp [isBare, hQuote, hReserved]
      exact List.forall_mem_cons.2 ⟨hBare, ih b' hRest⟩

end Value
end MemberNames
