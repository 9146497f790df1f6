import MemberNames.Proofs.Rdn.Value
import MemberNames.Proofs.Text.Slice
import Mathlib.Data.List.DropRight
import Mathlib.Data.List.Induction

/-!
# Values built in octets

What is built in octets is what the buffer holds, and the number of octets that trimming keeps is
always a boundary: it counts those up to the last character that trimming must leave alone. The
invariant is stated with a record of all characters, each marked as one that trimming must leave
alone or not.

* `Value.Buffer.addAll_octets`, `Value.Buffer.build_octets`: the builder does what the buffer does
* `Value.readUnquoted_eq_build`, `Value.readQuoted_eq_build`: values are read by additions
* `Value.Brings`: the characters that additions bring
* `Value.Builder.addAll_eq_ok_iff`, `Value.Builder.build_eq_ok_iff`: what the builder holds, and
  what becomes of it
-/

namespace MemberNames
namespace Value

/-! ## Buffers, addition by addition -/

namespace Buffer

/-- The builder that holds what the buffer holds. -/
def octets (b : Buffer) : Builder :=
  ⟨Utf8.encode b.text, b.pending, Utf8.size b.kept⟩

theorem flush_octets (b : Buffer) : b.octets.flush = SliceError.lift (b.flush.map octets) := by
  rw [Builder.flush, flush]
  by_cases hPending : b.pending.isEmpty
  · rw [if_pos hPending, if_pos (by exact hPending)]
    rfl
  · rw [if_neg hPending, if_neg (by exact hPending)]
    simp only [octets]
    cases Utf8.decode? b.pending with
    | none => rfl
    | some s => simp [Except.map, octets, text, Utf8.size]

theorem pending_of_flush {b b' : Buffer} (h : b.flush = .ok b') : b'.pending = [] := by
  rcases flush_eq_ok_iff.1 h with ⟨t, -, rfl⟩
  rw [settle]
  split
  · assumption
  · rfl

theorem keep_octets (b : Buffer) (c : Char) :
    b.octets.push c true = SliceError.lift ((b.keep c).map octets) := by
  rw [Builder.push, flush_octets, keep]
  cases hFlush : b.flush with
  | error d => rfl
  | ok b' => simp [Except.map, octets, text, Utf8.size, pending_of_flush hFlush]

theorem hang_octets (b : Buffer) (c : Char) :
    b.octets.push c false = SliceError.lift ((b.hang c).map octets) := by
  rw [Builder.push, flush_octets, hang]
  cases hFlush : b.flush with
  | error d => rfl
  | ok b' => simp [Except.map, octets, text, Utf8.size, pending_of_flush hFlush]

theorem add_octets (b : Buffer) (a : Addition) :
    b.octets.add a = SliceError.lift ((b.add a).map octets) := by
  cases a with
  | char c significant =>
      cases significant with
      | true => exact keep_octets b c
      | false => exact hang_octets b c
  | octet o => rfl

theorem addAll_octets (b : Buffer) (as : List Addition) :
    b.octets.addAll as = SliceError.lift ((b.addAll as).map octets) := by
  induction as generalizing b with
  | nil =>
      rfl
  | cons a as ih =>
      rw [Builder.addAll, addAll, List.foldlM_cons, List.foldlM_cons, add_octets]
      cases b.add a with
      | error d => rfl
      | ok b' => exact ih b'

/-- The octets of the kept text are cut off at a boundary. -/
theorem finish_octets (trim : Bool) (b : Buffer) :
    b.octets.finish trim =
      SliceError.lift ((if trim then b.finishTrimmed else b.finish).map Utf8.encode) := by
  rw [Builder.finish, flush_octets, finishTrimmed, finish]
  cases b.flush with
  | error d =>
      cases trim <;> rfl
  | ok b' =>
      cases trim with
      | false => rfl
      | true => exact SliceError.slice_encode_zero b'.kept b'.loose

theorem build_octets (trim : Bool) (as : List Addition) :
    Builder.build trim as = SliceError.lift ((build trim as).map Utf8.encode) := by
  have hEmpty : Builder.empty = empty.octets := rfl
  rw [Builder.build, build, hEmpty, addAll_octets]
  cases empty.addAll as with
  | error d => rfl
  | ok b =>
      cases trim with
      | true => exact finish_octets true b
      | false => exact finish_octets false b

end Buffer

/-! ## Values that are read -/

/-- What a lexeme adds to a value, where trimming may remove the loose lexemes. -/
def addition? (isLoose : Lexeme → Bool) (l : Lexeme) : Option Addition :=
  match l with
  | .char c | .escaped c => some (.char c (!isLoose l))
  | .octet o => some (.octet o)
  | .faulty _ => none

theorem addition?_of_character? {l : Lexeme} {c : Char} (hl : l.character? = some c)
    (isLoose : Lexeme → Bool) : addition? isLoose l = some (.char c (!isLoose l)) := by
  cases l with
  | char c' =>
      rcases Option.some.inj hl with rfl
      rfl
  | escaped c' =>
      rcases Option.some.inj hl with rfl
      rfl
  | octet o => cases hl
  | faulty d => cases hl

theorem Buffer.addAll_cons (b : Buffer) (a : Addition) (as : List Addition) :
    b.addAll (a :: as) = (b.add a >>= fun b' => b'.addAll as) := by
  rw [addAll, List.foldlM_cons]
  rfl

theorem readUnquoted_eq_addAll {b : Buffer} {ls : List Lexeme} (h : ∀ l ∈ ls, l.isUnit isBare) :
    readUnquoted b ls =
      (b.addAll (ls.filterMap (addition? isPaddingLexeme)) >>= Buffer.finishTrimmed) := by
  induction ls generalizing b with
  | nil =>
      rfl
  | cons l ls ih =>
      rcases List.forall_mem_cons.1 h with ⟨hUnit, hTail⟩
      rcases Lexeme.isUnit_cases hUnit with ⟨o, rfl⟩ | ⟨c, hl⟩
      · have hOctet : addition? isPaddingLexeme (.octet o) = some (.octet o) := rfl
        rw [readUnquoted, ih hTail, List.filterMap_cons_some hOctet, Buffer.addAll_cons]
        rfl
      · have hAdd : b.add (.char c (!isPaddingLexeme l)) =
            if isPaddingLexeme l then b.hang c else b.keep c := by
          cases isPaddingLexeme l <;> rfl
        rw [readUnquoted_cons hl hUnit, List.filterMap_cons_some (addition?_of_character? hl _),
          Buffer.addAll_cons, hAdd, bind_assoc]
        simp only [ih hTail]

theorem readQuoted_eq_addAll {b : Buffer} {body rest : List Lexeme}
    (hBody : ∀ l ∈ body, l.isUnit isQuotable) (hRest : rest.all isPaddingLexeme) :
    readQuoted b (body ++ .char '"' :: rest) =
      (b.addAll (body.filterMap (addition? fun _ => false)) >>= Buffer.finish) := by
  induction body generalizing b with
  | nil =>
      rw [List.nil_append, readQuoted, if_pos rfl, if_pos hRest]
      rfl
  | cons l body ih =>
      rcases List.forall_mem_cons.1 hBody with ⟨hUnit, hTail⟩
      rcases Lexeme.isUnit_cases hUnit with ⟨o, rfl⟩ | ⟨c, hl⟩
      · have hOctet : addition? (fun _ => false) (.octet o) = some (.octet o) := rfl
        rw [List.cons_append, readQuoted, ih hTail, List.filterMap_cons_some hOctet,
          Buffer.addAll_cons]
        rfl
      · rw [List.cons_append, readQuoted_cons hl hUnit,
          List.filterMap_cons_some (addition?_of_character? hl _), Buffer.addAll_cons, bind_assoc]
        simp only [ih hTail]
        rfl

/-- An unquoted value is what its lexemes build with trimming. -/
theorem readUnquoted_eq_build {ls : List Lexeme} (h : ∀ l ∈ ls, l.isUnit isBare) :
    readUnquoted .empty ls = Buffer.build true (ls.filterMap (addition? isPaddingLexeme)) :=
  readUnquoted_eq_addAll h

/-- A quoted value is what the lexemes between its quotes build without trimming. -/
theorem readQuoted_eq_build {body rest : List Lexeme} (hBody : ∀ l ∈ body, l.isUnit isQuotable)
    (hRest : rest.all isPaddingLexeme) :
    readQuoted .empty (body ++ .char '"' :: rest) =
      Buffer.build false (body.filterMap (addition? fun _ => false)) :=
  readQuoted_eq_addAll hBody hRest

/-! ## Characters and their marks -/

/-- The characters up to the last one that trimming must leave alone. -/
def keptPart (cs : List (Char × Bool)) : Text :=
  (cs.rdropWhile (!·.2)).map Prod.fst

/-- The characters behind the last one that trimming must leave alone. -/
def loosePart (cs : List (Char × Bool)) : Text :=
  (cs.rtakeWhile (!·.2)).map Prod.fst

/-- The characters of escapes, which trimming must leave alone. -/
def escaped (t : Text) : List (Char × Bool) :=
  t.map (·, true)

/-- Additions, the octets at their end that are still pending, and the characters that the others
bring. -/
inductive Brings : List Addition → Octets → List (Char × Bool) → Prop where
  | nil :
      Brings [] [] []
  | octet {as : List Addition} {pending : Octets} {cs : List (Char × Bool)} {o : UInt8} :
      Brings as pending cs → Brings (as ++ [.octet o]) (pending ++ [o]) cs
  | char {as : List Addition} {t : Text} {cs : List (Char × Bool)} {c : Char}
      {significant : Bool} :
      Brings as (Utf8.encode t) cs →
        Brings (as ++ [.char c significant]) [] (cs ++ escaped t ++ [(c, significant)])

theorem map_fst_escaped (t : Text) : (escaped t).map Prod.fst = t := by
  simp [escaped, Function.comp_def]

theorem keptPart_append_loosePart (cs : List (Char × Bool)) :
    keptPart cs ++ loosePart cs = cs.map Prod.fst := by
  rw [keptPart, loosePart, ← List.map_append, List.rdropWhile_append_rtakeWhile]

theorem keptPart_concat_true (cs : List (Char × Bool)) (c : Char) :
    keptPart (cs ++ [(c, true)]) = cs.map Prod.fst ++ [c] := by
  rw [keptPart, List.rdropWhile_concat_neg _ _ _ (by simp), List.map_append]
  rfl

theorem keptPart_concat_false (cs : List (Char × Bool)) (c : Char) :
    keptPart (cs ++ [(c, false)]) = keptPart cs := by
  rw [keptPart, List.rdropWhile_concat_pos _ _ _ (by simp), keptPart]

/-- The kept characters determine the loose ones, which are all others. -/
theorem loosePart_eq_of_append_eq {cs : List (Char × Bool)} {s : Text}
    (h : keptPart cs ++ s = cs.map Prod.fst) : loosePart cs = s := by
  rw [← keptPart_append_loosePart] at h
  exact (List.append_cancel_left h).symm

theorem loosePart_concat_true (cs : List (Char × Bool)) (c : Char) :
    loosePart (cs ++ [(c, true)]) = [] := by
  apply loosePart_eq_of_append_eq
  rw [keptPart_concat_true]
  simp

theorem loosePart_concat_false (cs : List (Char × Bool)) (c : Char) :
    loosePart (cs ++ [(c, false)]) = loosePart cs ++ [c] := by
  apply loosePart_eq_of_append_eq
  rw [keptPart_concat_false, ← List.append_assoc, keptPart_append_loosePart]
  simp

/-! ## What the buffer holds -/

namespace Buffer

/-- The buffer that holds marked characters. -/
def ofMarked (cs : List (Char × Bool)) (pending : Octets) : Buffer :=
  ⟨keptPart cs, loosePart cs, pending⟩

theorem text_ofMarked (cs : List (Char × Bool)) (pending : Octets) :
    (ofMarked cs pending).text = cs.map Prod.fst :=
  keptPart_append_loosePart cs

theorem ofMarked_concat_true (cs : List (Char × Bool)) (c : Char) (pending : Octets) :
    ofMarked (cs ++ [(c, true)]) pending = ⟨cs.map Prod.fst ++ [c], [], pending⟩ := by
  rw [ofMarked, keptPart_concat_true, loosePart_concat_true]

theorem ofMarked_concat_false (cs : List (Char × Bool)) (c : Char) (pending : Octets) :
    ofMarked (cs ++ [(c, false)]) pending = ⟨keptPart cs, loosePart cs ++ [c], pending⟩ := by
  rw [ofMarked, keptPart_concat_false, loosePart_concat_false]

theorem settle_ofMarked (cs : List (Char × Bool)) (t : Text) :
    (ofMarked cs (Utf8.encode t)).settle t = ofMarked (cs ++ escaped t) [] := by
  rcases List.eq_nil_or_concat t with rfl | ⟨t, c, rfl⟩
  -- Without pending octets nothing changes, and with some all characters are kept.
  · simp [settle, ofMarked, escaped]
  · have hPending : Utf8.encode (t.concat c) ≠ [] := by
      intro hNil
      have hText : t.concat c = [] := Utf8.encode_injective hNil
      simp at hText
    have hSettle : (ofMarked cs (Utf8.encode (t.concat c))).settle (t.concat c) =
        ⟨cs.map Prod.fst ++ t.concat c, [], []⟩ := by
      rw [← text_ofMarked cs (Utf8.encode (t.concat c))]
      exact if_neg hPending
    have hEscaped : cs ++ escaped (t.concat c) = cs ++ escaped t ++ [(c, true)] := by
      simp [escaped]
    rw [hSettle, hEscaped, ofMarked_concat_true, List.map_append, map_fst_escaped,
      List.append_assoc, List.concat_eq_append]

/-- One more character, in front of which the pending octets are read. -/
theorem added_ofMarked (cs : List (Char × Bool)) (t : Text) (c : Char) (significant : Bool) :
    (ofMarked cs (Utf8.encode t)).added (!significant) t c =
      ofMarked (cs ++ escaped t ++ [(c, significant)]) [] := by
  cases significant with
  | true =>
      rw [ofMarked_concat_true, List.map_append, map_fst_escaped,
        ← text_ofMarked cs (Utf8.encode t)]
      rfl
  | false =>
      rw [ofMarked_concat_false, added, Bool.not_false, if_pos rfl, settle_ofMarked]
      rfl

theorem add_char_eq_ok_iff {b b' : Buffer} {c : Char} {significant : Bool} :
    b.add (.char c significant) = .ok b' ↔
      ∃ t, Utf8.encode t = b.pending ∧ b' = b.added (!significant) t c := by
  rw [← add_eq_ok_iff]
  cases significant <;> rfl

theorem addAll_concat (b : Buffer) (as : List Addition) (a : Addition) :
    b.addAll (as ++ [a]) = (b.addAll as >>= fun b' => b'.add a) := by
  simp [addAll]

/-- One more addition brings what the buffer holds from one record of marks to the next. -/
theorem brings_of_add {as : List Addition} {pending : Octets} {cs : List (Char × Bool)}
    {a : Addition} {b : Buffer} (h : Brings as pending cs)
    (hAdd : (ofMarked cs pending).add a = .ok b) :
    ∃ pending' cs', Brings (as ++ [a]) pending' cs' ∧ b = ofMarked cs' pending' := by
  cases a with
  | char c significant =>
      rcases add_char_eq_ok_iff.1 hAdd with ⟨t, ht, rfl⟩
      rcases (ht : Utf8.encode t = pending) with rfl
      exact ⟨_, _, .char h, added_ofMarked cs t c significant⟩
  | octet o =>
      rcases Except.ok.inj hAdd with rfl
      exact ⟨_, _, .octet h, rfl⟩

theorem addAll_of_brings {as : List Addition} {pending : Octets} {cs : List (Char × Bool)}
    (h : Brings as pending cs) : empty.addAll as = .ok (ofMarked cs pending) := by
  induction h with
  | nil =>
      rfl
  | octet _ ih =>
      rw [addAll_concat, ih]
      rfl
  | @char as t cs c significant _ ih =>
      rw [addAll_concat, ih, Result.ok_bind, add_char_eq_ok_iff]
      exact ⟨t, rfl, (added_ofMarked cs t c significant).symm⟩

/-- After any additions, the buffer holds the characters that they bring, and it fails only where
they bring none. -/
theorem addAll_eq_ok_iff {as : List Addition} {b : Buffer} :
    empty.addAll as = .ok b ↔ ∃ pending cs, Brings as pending cs ∧ b = ofMarked cs pending := by
  constructor
  · intro h
    induction as using List.reverseRecOn generalizing b with
    | nil =>
        rcases Except.ok.inj h with rfl
        exact ⟨[], [], .nil, rfl⟩
    | append_singleton as a ih =>
        rw [addAll_concat] at h
        rcases Result.bind_eq_ok_iff.1 h with ⟨b', hFront, hAdd⟩
        rcases ih hFront with ⟨pending, cs, hBrings, rfl⟩
        exact brings_of_add hBrings hAdd
  · rintro ⟨pending, cs, hBrings, rfl⟩
    exact addAll_of_brings hBrings

/-- What is made of marked characters once the pending octets are read. -/
theorem finish_ofMarked_eq_ok_iff {trim : Bool} {cs : List (Char × Bool)} {pending : Octets}
    {v : Text} :
    (if trim then finishTrimmed else finish) (ofMarked cs pending) = .ok v ↔
      ∃ t, Utf8.encode t = pending ∧
        v = if trim then keptPart (cs ++ escaped t) else cs.map Prod.fst ++ t := by
  have hSettled : ∀ {t}, Utf8.encode t = pending →
      (ofMarked cs pending).settle t = ofMarked (cs ++ escaped t) [] := by
    rintro t rfl
    exact settle_ofMarked cs t
  cases trim with
  | true =>
      refine map_flush_eq_ok_iff.trans (exists_congr fun t => and_congr_right fun ht => ?_)
      rw [hSettled ht]
      exact Iff.rfl
  | false =>
      refine map_flush_eq_ok_iff.trans (exists_congr fun t => and_congr_right fun ht => ?_)
      rw [hSettled ht, text_ofMarked, List.map_append, map_fst_escaped]
      exact Iff.rfl

/-- Trimming removes the loose characters at the end, and without it nothing is removed. -/
theorem build_eq_ok_iff {trim : Bool} {as : List Addition} {v : Text} :
    build trim as = .ok v ↔
      ∃ t cs, Brings as (Utf8.encode t) cs ∧
        v = if trim then keptPart (cs ++ escaped t) else cs.map Prod.fst ++ t := by
  rw [build, Result.bind_eq_ok_iff]
  constructor
  · intro h
    rcases h with ⟨b, hAll, hFinish⟩
    rcases addAll_eq_ok_iff.1 hAll with ⟨pending, cs, hBrings, rfl⟩
    rcases finish_ofMarked_eq_ok_iff.1 hFinish with ⟨t, rfl, hv⟩
    exact ⟨t, cs, hBrings, hv⟩
  · intro h
    rcases h with ⟨t, cs, hBrings, hv⟩
    exact ⟨_, addAll_of_brings hBrings, finish_ofMarked_eq_ok_iff.2 ⟨t, rfl, hv⟩⟩

end Buffer

/-! ## What the builder holds -/

namespace Builder

/-- The builder that holds marked characters. -/
def ofMarked (cs : List (Char × Bool)) (pending : Octets) : Builder :=
  ⟨Utf8.encode (cs.map Prod.fst), pending, Utf8.size (keptPart cs)⟩

theorem octets_ofMarked (cs : List (Char × Bool)) (pending : Octets) :
    (Buffer.ofMarked cs pending).octets = ofMarked cs pending := by
  rw [Buffer.octets, Buffer.text_ofMarked]
  rfl

/-- After any additions, the number is the size of the text up to the last character that trimming
must leave alone. -/
theorem addAll_eq_ok_iff {as : List Addition} {b : Builder} :
    empty.addAll as = .ok b ↔ ∃ pending cs, Brings as pending cs ∧ b = ofMarked cs pending := by
  have hEmpty : empty = Buffer.empty.octets := rfl
  rw [hEmpty, Buffer.addAll_octets, SliceError.lift_eq_ok_iff, Result.map_eq_ok_iff]
  constructor
  · intro h
    rcases h with ⟨b', hAll, rfl⟩
    rcases Buffer.addAll_eq_ok_iff.1 hAll with ⟨pending, cs, hBrings, rfl⟩
    exact ⟨pending, cs, hBrings, octets_ofMarked cs pending⟩
  · intro h
    rcases h with ⟨pending, cs, hBrings, rfl⟩
    exact ⟨_, Buffer.addAll_of_brings hBrings, octets_ofMarked cs pending⟩

/-- The number is a boundary. -/
theorem isBoundary_ofMarked (cs : List (Char × Bool)) (pending : Octets) :
    Utf8.isBoundary (ofMarked cs pending).out (ofMarked cs pending).significant := by
  rw [ofMarked, ← keptPart_append_loosePart]
  exact Utf8.isBoundary_size _ _

theorem build_eq_ok_iff {trim : Bool} {as : List Addition} {v : Octets} :
    build trim as = .ok v ↔
      ∃ t cs, Brings as (Utf8.encode t) cs ∧
        v = Utf8.encode (if trim then keptPart (cs ++ escaped t) else cs.map Prod.fst ++ t) := by
  rw [Buffer.build_octets, SliceError.lift_eq_ok_iff, Result.map_eq_ok_iff]
  constructor
  · intro h
    rcases h with ⟨s, hBuild, rfl⟩
    rcases Buffer.build_eq_ok_iff.1 hBuild with ⟨t, cs, hBrings, rfl⟩
    exact ⟨t, cs, hBrings, rfl⟩
  · intro h
    rcases h with ⟨t, cs, hBrings, rfl⟩
    exact ⟨_, Buffer.build_eq_ok_iff.2 ⟨t, cs, hBrings, rfl⟩, rfl⟩

-- The character of the escapes is kept, and the blank behind it is removed.
example :
    build true [.char 'é' true, .octet 0xE2, .octet 0x82, .octet 0xAC, .char ' ' false] =
      .ok (Utf8.encode ['é', '€']) := by
  decide

end Builder
end Value
end MemberNames
