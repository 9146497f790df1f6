import MemberNames.Proofs.Yaml.Scalar
import MemberNames.Yaml.Layout

/-!
# The tokens of plain documents

A plain document is a block map whose keys are words, and whose values are words or block lists of
words. It has one line for each entry and each item, and its tokens are those of the entries, one
after the other. The invariant between two lines is that of the reader: it stands in front of a line
in the one map at column zero, outside of flow collections, and no key has started.

* `Yaml.Value`, `Yaml.Entry`: what plain documents are made of, as text and as tokens
* `Yaml.Layout.Leads`: several steps of the reader
* `Yaml.Layout.skip?_eq`: the way to the next token
* `Yaml.Layout.leads_key`, `Yaml.Layout.leads_colon`, `Yaml.Layout.leads_value`: the steps of an
  entry
* `Yaml.tokens?_render`: the tokens of a document
-/

namespace MemberNames
namespace Yaml

/-! ## Plain documents -/

/-- What a plain document has for a key. -/
inductive Value where
  | word (w : Word)
  | list (ws : List Word)

structure Entry where
  key : Word
  value : Value

namespace Word

/-- The word as an item of a list. -/
def renderItem (w : Word) : Text :=
  '-' :: ' ' :: (w.text ++ ['\n'])

def scalar (w : Word) : Token :=
  .scalar true w.text

def itemTokens (w : Word) : List Token :=
  [.dash, w.scalar]

end Word

namespace Value

def render : Value → Text
  | .word w => ' ' :: (w.text ++ ['\n'])
  | .list ws => '\n' :: ws.flatMap Word.renderItem

def tokens : Value → List Token
  | .word w => [w.scalar]
  | .list ws => ws.flatMap Word.itemTokens

end Value

namespace Entry

def render (e : Entry) : Text :=
  e.key.text ++ ':' :: e.value.render

def tokens (e : Entry) : List Token :=
  .key :: e.key.scalar :: .value :: e.value.tokens

end Entry

variable {w : Word} {s rest : Text} {line column : Nat} {tokens : List Token} {columns : List Nat}

theorem isLineStart_items (ws : List Word) (h : IsLineStart rest) :
    IsLineStart (ws.flatMap Word.renderItem ++ rest) := by
  cases ws with
  | nil => exact h
  | cons w ws => exact isLineStart_cons (by decide) _

theorem isLineStart_entries (es : List Entry) : IsLineStart (es.flatMap Entry.render) := by
  cases es with
  | nil => exact nofun
  | cons e es =>
      rw [List.flatMap_cons, Entry.render, List.append_assoc]
      exact isLineStart_word e.key _

namespace Layout

/-! ## Steps -/

/-- A number of steps of the reader, each of which reads a token. -/
def Leads (steps : Nat) (l l' : Layout) : Prop :=
  ∀ bound, readFrom (bound + steps) l = readFrom bound l'

variable {l l' l'' : Layout}

theorem Leads.trans {m n : Nat} (h : Leads m l l') (h' : Leads n l' l'') :
    Leads (m + n) l l'' := by
  intro bound
  rw [Nat.add_comm m, ← Nat.add_assoc, h, h']

theorem leads_of_token? {c : Char} (hSkip : l.skip? = some l') (hRest : l'.cursor.rest = c :: s)
    (hToken : l'.token? c s = some l'') : Leads 1 l l'' := by
  intro bound
  rw [readFrom, hSkip]
  simp [hRest, hToken]

theorem leads_of_skip? (h : l.skip? = l'.skip?) : Leads 0 l l' := by
  intro bound
  cases bound with
  | zero => rfl
  | succ bound => rw [Nat.add_zero, readFrom, readFrom, h]

/-! ## Places between tokens -/

/-- The columns of blocks in a plain document, in front of its first key and behind it. -/
def IsPlain (columns : List Nat) : Prop :=
  columns = [] ∨ columns = [0]

/-- The reader in front of a line of a plain document. -/
def atLine (columns : List Nat) (s : Text) (line : Nat) (tokens : List Token) : Layout :=
  ⟨⟨s, line, 0⟩, tokens, columns, none, [], true⟩

section

variable {here cursor : Cursor} {allowed keyAllowed : Bool} {key : Option KeyPlace}

/-- No block ends at column zero or behind it, so that a place at which a key may have started is
all that can be given up on the way to the next token. -/
theorem skip?_eq (tokens : List Token) (hSkip : here.skip false allowed = (cursor, keyAllowed))
    (hColumns : IsPlain columns)
    (hKey : ∀ place ∈ key, place.isBehind cursor → place.required = false) :
    (⟨here, tokens, columns, key, [], allowed⟩ : Layout).skip? =
      some ⟨cursor, tokens, columns, key.filter (!·.isBehind cursor), [], keyAllowed⟩ := by
  have hOpen : columns.takeWhile (fun column => !decide (column ≤ cursor.column)) = [] := by
    rcases hColumns with rfl | rfl
    · rfl
    · simp
  have hLong : (key.any (·.isBehind cursor) && key.any (·.required)) = false := by
    cases key with
    | none => rfl
    | some place =>
        rw [Option.any_some, Option.any_some, Bool.and_eq_false_imp]
        exact hKey place rfl
  have hLeft : (if key.any (·.isBehind cursor) then none else key) =
      key.filter (!·.isBehind cursor) := by
    cases key with
    | none => rfl
    | some place => cases hBehind : place.isBehind cursor <;> simp [Option.filter, hBehind]
  simp [skip?, inFlow, hSkip, dropLongKeys?, hLong, closeBlocks, hOpen, hLeft]

theorem skip?_of_no_key (tokens : List Token)
    (hSkip : here.skip false allowed = (cursor, keyAllowed)) (hColumns : IsPlain columns) :
    (⟨here, tokens, columns, none, [], allowed⟩ : Layout).skip? =
      some ⟨cursor, tokens, columns, none, [], keyAllowed⟩ :=
  skip?_eq tokens hSkip hColumns nofun

theorem skip?_atLine (hColumns : IsPlain columns) (hStart : IsLineStart s) (line : Nat)
    (tokens : List Token) :
    (atLine columns s line tokens).skip? = some (atLine columns s line tokens) :=
  skip?_of_no_key tokens (Cursor.skip_of_isLineStart hStart line 0 true) hColumns

end

/-! ## Words -/

/-- A word starts a plain scalar. -/
theorem token?_of_isWordChar {c : Char} (h : isWordChar c) (hRest : l.cursor.rest = c :: s) :
    l.token? c s = l.content? plain? := by
  rcases isSolid_of_isWordChar h with ⟨hSolid, hMarks⟩
  rcases isSolid_iff.1 hSolid with ⟨hBlank, hBreak, -⟩
  have hMarker : ∀ d ∈ marks, l.cursor.atMarker d = false := by
    intro d hd
    rw [Cursor.atMarker, hRest]
    simp [ne_of_isWordChar h hd]
  have hPlain : Scalar.startsPlain l.inFlow c s := by
    have hIndicator : c ∉ Scalar.indicators := fun hc => hMarks (List.mem_append_right _ hc)
    have hHyphen : c ≠ '-' := ne_of_isWordChar h (by decide)
    have hColon : c ≠ ':' := ne_of_isWordChar h (by decide)
    have hQuestion : c ≠ '?' := ne_of_isWordChar h (by decide)
    simp [Scalar.startsPlain, hHyphen, hColon, hQuestion, hBlank, hBreak, hIndicator]
  simp only [marks, Scalar.indicators, List.cons_append, List.nil_append, List.mem_cons,
    not_or] at hMarks
  rw [token?, hMarker '-' (by decide), hMarker '.' (by decide)]
  simp [hMarks, hPlain]

theorem plain?_colon (hFlow : l.outerKeys = [])
    (hCursor : l.cursor = ⟨w.text ++ ':' :: s, line, column⟩) (h : endsToken s) :
    plain? l = some (w.scalar, ⟨':' :: s, line, column + w.text.length⟩, false) := by
  rw [plain?, inFlow, hFlow, hCursor, Scalar.plain?]
  simp only [List.isEmpty_nil, Bool.not_true, Scalar.plainFrom_append w.isWordChar,
    Scalar.plainFrom_colon h]
  simp [Scalar.Found.prepend, Word.scalar]

theorem plain?_newline (hFlow : l.outerKeys = []) (hLeast : 0 < l.least)
    (hCursor : l.cursor = ⟨w.text ++ '\n' :: rest, line, column⟩) (h : IsLineStart rest) :
    plain? l = some (w.scalar, ⟨rest, line + 1, 0⟩, true) := by
  rw [plain?, inFlow, hFlow, hCursor, Scalar.plain?]
  simp only [List.isEmpty_nil, Bool.not_true, Scalar.plainFrom_append w.isWordChar,
    Scalar.plainFrom_newline hLeast h]
  simp [Scalar.Found.prepend, Word.scalar]

theorem leads_of_plain? {noted : Layout} {found : Token × Cursor × Bool} (hSkip : l.skip? = some l')
    (hRest : l'.cursor.rest = w.text ++ s) (hNote : l'.noteKey? = some noted)
    (hPlain : plain? noted = some found) :
    Leads 1 l { noted.add found.1 with cursor := found.2.1, keyAllowed := found.2.2 } := by
  cases hText : w.text with
  | nil => exact absurd hText w.ne_nil
  | cons c text =>
      have hHead : l'.cursor.rest = c :: (text ++ s) := by
        rw [hRest, hText]
        rfl
      have hWord : isWordChar c := w.isWordChar c (hText ▸ List.mem_cons_self)
      refine leads_of_token? hSkip hHead ?_
      rw [token?_of_isWordChar hWord hHead, content?, hNote]
      simp [hPlain]

/-! ## Entries -/

theorem leads_key (hColumns : IsPlain columns) (h : endsToken s) :
    Leads 1 (atLine columns (w.text ++ ':' :: s) line tokens)
      ⟨⟨':' :: s, line, w.text.length⟩, w.scalar :: tokens, columns,
        some ⟨tokens.length, line, 0, columns.head? = some 0⟩, [], false⟩ := by
  have hSkip := skip?_atLine hColumns (isLineStart_word w (':' :: s)) line tokens
  have hNote : (atLine columns (w.text ++ ':' :: s) line tokens).noteKey? =
      some { atLine columns (w.text ++ ':' :: s) line tokens with
        key := some ⟨tokens.length, line, 0, columns.head? = some 0⟩ } := by
    simp [noteKey?, atLine, dropKey?, inFlow]
  have hKey := leads_of_plain? hSkip rfl hNote (plain?_colon rfl rfl h)
  rw [Nat.zero_add] at hKey
  exact hKey

/-- The first key starts the map. -/
theorem announceKey?_eq (hColumns : IsPlain columns) (cursor : Cursor) (t : Token)
    (tokens : List Token) (line : Nat) (required : Bool) :
    (⟨cursor, t :: tokens, columns, some ⟨tokens.length, line, 0, required⟩, [], false⟩ :
        Layout).announceKey? =
      some ⟨cursor, t :: .key :: (if columns = [] then .blockMapStart :: tokens else tokens), [0],
        none, [], false⟩ := by
  have hOne : tokens.length + 1 - tokens.length = 1 := Nat.add_sub_cancel_left _ _
  have hTwo : tokens.length + 2 - tokens.length = 2 := Nat.add_sub_cancel_left _ _
  rcases hColumns with rfl | rfl
  · simp [announceKey?, hOne, hTwo, openBlock, inFlow, least]
  · simp [announceKey?, hOne, openBlock, inFlow, least]

theorem token?_colon (hRest : l.cursor.rest = ':' :: s) (h : endsToken s) :
    l.token? ':' s = l.announceKey?.map (·.take 1 .value) := by
  rw [token?]
  simp [Cursor.atMarker, hRest, h]

theorem leads_colon (hColumns : IsPlain columns) (h : endsToken s) :
    Leads 1
      ⟨⟨':' :: s, line, w.text.length⟩, w.scalar :: tokens, columns,
        some ⟨tokens.length, line, 0, columns.head? = some 0⟩, [], false⟩
      ⟨⟨s, line, w.text.length + 1⟩,
        .value :: w.scalar :: .key :: (if columns = [] then .blockMapStart :: tokens else tokens),
        [0], none, [], false⟩ := by
  let place : KeyPlace := ⟨tokens.length, line, 0, columns.head? = some 0⟩
  -- A word is short enough to be a key up to the colon.
  have hPlace : place.isBehind ⟨':' :: s, line, w.text.length⟩ = false := by
    have hShort := w.length_le
    simp only [KeyPlace.isBehind, place, Bool.or_eq_false_iff, decide_eq_false_iff_not]
    omega
  have hRequired : ∀ place' ∈ some place, place'.isBehind ⟨':' :: s, line, w.text.length⟩ →
      place'.required = false := by
    rintro place' hSame hBehind
    cases hSame
    rw [hPlace] at hBehind
    cases hBehind
  have hKept : (some place).filter (!·.isBehind ⟨':' :: s, line, w.text.length⟩) = some place := by
    simp [Option.filter, hPlace]
  have hSkip := skip?_eq (w.scalar :: tokens)
    (Cursor.skip_of_isLineStart (isLineStart_cons (by decide) s) line w.text.length false) hColumns
    hRequired
  rw [hKept] at hSkip
  refine leads_of_token? hSkip rfl ?_
  rw [token?_colon rfl h, announceKey?_eq hColumns]
  rfl

/-! ## Values -/

theorem leads_word (h : IsLineStart rest) :
    Leads 1 ⟨⟨' ' :: (w.text ++ '\n' :: rest), line, column⟩, tokens, [0], none, [], false⟩
      (atLine [0] rest (line + 1) (w.scalar :: tokens)) := by
  let l : Layout := ⟨⟨w.text ++ '\n' :: rest, line, column + 1⟩, tokens, [0], none, [], false⟩
  have hSkip := skip?_of_no_key tokens
    (Cursor.skip_space (isLineStart_word w ('\n' :: rest)) line column false) (.inr rfl)
  have hPlain : plain? l = some (w.scalar, ⟨rest, line + 1, 0⟩, true) :=
    plain?_newline rfl Nat.zero_lt_one rfl h
  exact leads_of_plain? hSkip rfl rfl hPlain

/-- The list does not start a block of its own, because it stands at the column of its key. -/
theorem leads_dash (s : Text) (line : Nat) (tokens : List Token) :
    Leads 1 (atLine [0] ('-' :: ' ' :: s) line tokens)
      ⟨⟨' ' :: s, line, 1⟩, .dash :: tokens, [0], none, [], true⟩ :=
  leads_of_token? (skip?_atLine (.inr rfl) (isLineStart_cons (by decide) _) line tokens) rfl rfl

/-- Behind a dash a key may start, so that the place of the word is kept in mind up to the next
line. -/
theorem leads_item_word (h : IsLineStart rest) :
    Leads 1 ⟨⟨' ' :: (w.text ++ '\n' :: rest), line, 1⟩, tokens, [0], none, [], true⟩
      (atLine [0] rest (line + 1) (w.scalar :: tokens)) := by
  let l : Layout := ⟨⟨w.text ++ '\n' :: rest, line, 2⟩, tokens, [0], none, [], true⟩
  let place : KeyPlace := ⟨tokens.length, line, 2, false⟩
  have hSkip := skip?_of_no_key tokens
    (Cursor.skip_space (isLineStart_word w ('\n' :: rest)) line 1 true) (.inr rfl)
  have hNote : l.noteKey? = some { l with key := some place } := by
    simp [noteKey?, l, dropKey?, inFlow, place]
  have hPlain : plain? { l with key := some place } = some (w.scalar, ⟨rest, line + 1, 0⟩, true) :=
    plain?_newline rfl Nat.zero_lt_one rfl h
  have hRead := leads_of_plain? hSkip rfl hNote hPlain
  have hOptional : ∀ place' ∈ some place, place'.isBehind ⟨rest, line + 1, 0⟩ →
      place'.required = false := by
    rintro place' hSame -
    cases hSame
    rfl
  have hDropped : (some place).filter (!·.isBehind ⟨rest, line + 1, 0⟩) = none := by
    simp [Option.filter, KeyPlace.isBehind, place]
  have hNext := skip?_eq (w.scalar :: tokens) (Cursor.skip_of_isLineStart h (line + 1) 0 true)
    (.inr rfl) hOptional
  rw [hDropped] at hNext
  have hLine := skip?_atLine (.inr rfl) h (line + 1) (w.scalar :: tokens)
  exact hRead.trans (leads_of_skip? (hNext.trans hLine.symm))

theorem leads_item (h : IsLineStart rest) :
    Leads 2 (atLine [0] (w.renderItem ++ rest) line tokens)
      (atLine [0] rest (line + 1) (w.itemTokens.reverse ++ tokens)) := by
  have hItem : w.renderItem ++ rest = '-' :: ' ' :: (w.text ++ '\n' :: rest) := by
    simp [Word.renderItem]
  rw [hItem]
  exact (leads_dash _ line tokens).trans (leads_item_word h)

theorem leads_items (ws : List Word) (h : IsLineStart rest) (line : Nat) (tokens : List Token) :
    Leads (2 * ws.length) (atLine [0] (ws.flatMap Word.renderItem ++ rest) line tokens)
      (atLine [0] rest (line + ws.length) ((ws.flatMap Word.itemTokens).reverse ++ tokens)) := by
  induction ws generalizing line tokens with
  | nil =>
      exact leads_of_skip? rfl
  | cons w ws ih =>
      have hItem : Leads 2 (atLine [0] (w.renderItem ++ (ws.flatMap Word.renderItem ++ rest)) line
          tokens) _ := leads_item (isLineStart_items ws h)
      have hBoth := hItem.trans (ih (line + 1) (w.itemTokens.reverse ++ tokens))
      rw [List.flatMap_cons, List.append_assoc, List.length_cons, Nat.mul_succ, Nat.add_comm _ 2,
        Nat.add_comm ws.length, ← Nat.add_assoc, List.flatMap_cons, List.reverse_append,
        List.append_assoc]
      exact hBoth

/-- What stands behind the colon of an entry. -/
theorem leads_value (v : Value) (h : IsLineStart rest) (line column : Nat) (tokens : List Token) :
    ∃ line', Leads v.tokens.length
      ⟨⟨v.render ++ rest, line, column⟩, tokens, [0], none, [], false⟩
      (atLine [0] rest line' (v.tokens.reverse ++ tokens)) := by
  cases v with
  | word w =>
      have hText : (Value.word w).render ++ rest = ' ' :: (w.text ++ '\n' :: rest) := by
        simp [Value.render]
      rw [hText]
      exact ⟨line + 1, leads_word h⟩
  | list ws =>
      have hItems := isLineStart_items ws h
      have hSkip := skip?_of_no_key tokens (Cursor.skip_newline hItems line column false) (.inr rfl)
      have hLine := skip?_atLine (.inr rfl) hItems (line + 1) tokens
      have hRead := (leads_of_skip? (hSkip.trans hLine.symm)).trans
        (leads_items ws h (line + 1) tokens)
      have hCount : (Value.list ws).tokens.length = 0 + 2 * ws.length := by
        simp [Value.tokens, Word.itemTokens, Nat.mul_comm]
      rw [hCount]
      exact ⟨_, hRead⟩

/-! ## Documents -/

theorem endsToken_render (v : Value) (s : Text) : endsToken (v.render ++ s) := by
  cases v with
  | word w => rfl
  | list ws => rfl

theorem leads_entry (e : Entry) (hColumns : IsPlain columns) (h : IsLineStart rest) (line : Nat)
    (tokens : List Token) :
    ∃ line', Leads (2 + e.value.tokens.length) (atLine columns (e.render ++ rest) line tokens)
      (atLine [0] rest line' (e.tokens.reverse ++
        if columns = [] then .blockMapStart :: tokens else tokens)) := by
  have hEnds := endsToken_render e.value rest
  have hText : e.render ++ rest = e.key.text ++ ':' :: (e.value.render ++ rest) := by
    simp [Entry.render]
  have hKey : Leads 2
      (atLine columns (e.key.text ++ ':' :: (e.value.render ++ rest)) line tokens) _ :=
    (leads_key hColumns hEnds).trans (leads_colon hColumns hEnds)
  rcases leads_value e.value h line (e.key.text.length + 1)
    (.value :: e.key.scalar :: .key ::
      (if columns = [] then .blockMapStart :: tokens else tokens)) with ⟨line', hValue⟩
  refine ⟨line', ?_⟩
  rw [hText]
  simpa [Entry.tokens] using hKey.trans hValue

/-- How many steps entries take. -/
def steps : List Entry → Nat
  | [] => 0
  | e :: es => 2 + e.value.tokens.length + steps es

theorem leads_entries (es : List Entry) (line : Nat) (tokens : List Token) :
    ∃ line', Leads (steps es) (atLine [0] (es.flatMap Entry.render) line tokens)
      (atLine [0] [] line' ((es.flatMap Entry.tokens).reverse ++ tokens)) := by
  induction es generalizing line tokens with
  | nil =>
      exact ⟨line, leads_of_skip? rfl⟩
  | cons e es ih =>
      rcases leads_entry e (.inr rfl) (isLineStart_entries es) line tokens with ⟨line', hEntry⟩
      rcases ih line' (e.tokens.reverse ++ tokens) with ⟨line'', hEntries⟩
      have hBoth := hEntry.trans hEntries
      refine ⟨line'', ?_⟩
      rw [List.flatMap_cons, List.flatMap_cons, List.reverse_append, List.append_assoc]
      exact hBoth

theorem readFrom_end (bound line : Nat) (tokens : List Token) :
    readFrom (bound + 1) (atLine [0] [] line tokens) = some (.blockEnd :: tokens).reverse :=
  rfl

end Layout

/-- The characters of plain documents. -/
def isPlainChar (c : Char) : Bool :=
  isWordChar c || [' ', '-', ':', '\n'].contains c

theorem isPlainChar_of_isWordChar {c : Char} (h : isWordChar c) : isPlainChar c :=
  Bool.or_eq_true_iff.2 (.inl h)

theorem isPlainChar_line (w : Word) : ∀ c ∈ w.text ++ ['\n'], isPlainChar c := by
  intro c hc
  rcases List.mem_append.1 hc with hWord | hEnd
  · exact isPlainChar_of_isWordChar (w.isWordChar c hWord)
  · rw [List.mem_singleton.1 hEnd]
    decide

theorem isPlainChar_value (v : Value) : ∀ c ∈ v.render, isPlainChar c := by
  cases v with
  | word w =>
      rw [Value.render, List.forall_mem_cons]
      exact ⟨by decide, isPlainChar_line w⟩
  | list ws =>
      rw [Value.render, List.forall_mem_cons]
      refine ⟨by decide, ?_⟩
      intro c hc
      rcases List.mem_flatMap.1 hc with ⟨w, -, hItem⟩
      rw [Word.renderItem, List.mem_cons, List.mem_cons] at hItem
      rcases hItem with rfl | rfl | hLine
      · decide
      · decide
      · exact isPlainChar_line w c hLine

theorem isPlainChar_entries (es : List Entry) :
    ∀ c ∈ es.flatMap Entry.render, isPlainChar c := by
  intro c hc
  rcases List.mem_flatMap.1 hc with ⟨e, -, hEntry⟩
  rw [Entry.render, List.mem_append, List.mem_cons] at hEntry
  rcases hEntry with hKey | rfl | hValue
  · exact isPlainChar_of_isWordChar (e.key.isWordChar c hKey)
  · decide
  · exact isPlainChar_value e.value c hValue

theorem isAdmissible_of_isPlainChar {c : Char} (h : isPlainChar c) :
    isAdmissible c ∧ c ≠ '\r' ∧ c.toNat ≠ 0x85 := by
  rcases Bool.or_eq_true_iff.1 h with hWord | hOther
  · exact Text.ascii_induction
      (fun d => isWordChar d → isAdmissible d ∧ d ≠ '\r' ∧ d.toNat ≠ 0x85) (by decide)
      (toNat_lt_of_isWordChar hWord) hWord
  · have hMem : c ∈ [' ', '-', ':', '\n'] := List.contains_iff_mem.1 hOther
    simp only [List.mem_cons, List.not_mem_nil, or_false] at hMem
    rcases hMem with rfl | rfl | rfl | rfl <;> decide

theorem unifyBreaks_eq_self {s : Text} (h : ∀ c ∈ s, isPlainChar c) : unifyBreaks s = s := by
  induction s with
  | nil =>
      rfl
  | cons c s ih =>
      rcases List.forall_mem_cons.1 h with ⟨hc, hRest⟩
      rcases isAdmissible_of_isPlainChar hc with ⟨-, hReturn, hNext⟩
      rw [unifyBreaks.eq_def]
      split
      · rename_i hNil
        cases hNil
      · rename_i hPair
        exact absurd (List.cons.inj hPair).1 hReturn
      · rename_i hCons
        cases hCons
        rw [ih hRest, if_neg]
        simp [hReturn, hNext]

/-- Nothing in a plain document has to be written in another way. -/
theorem prepare_eq_self {s : Text} (h : ∀ c ∈ s, isPlainChar c) : prepare s = some s := by
  have hAdmissible : s.all isAdmissible :=
    List.all_eq_true.2 fun c hc => (isAdmissible_of_isPlainChar (h c hc)).1
  rw [prepare, if_pos hAdmissible, unifyBreaks_eq_self h]

theorem length_tokens_lt (v : Value) : v.tokens.length < v.render.length := by
  cases v with
  | word w =>
      simp [Value.tokens, Value.render]
  | list ws =>
      induction ws with
      | nil => decide
      | cons w ws ih =>
          simp only [Value.tokens, Value.render, List.flatMap_cons, List.length_append,
            List.length_cons, Word.renderItem, Word.itemTokens] at ih ⊢
          omega

/-- There are enough characters to bound the steps. -/
theorem steps_le_length (es : List Entry) :
    Layout.steps es ≤ (es.flatMap Entry.render).length := by
  induction es with
  | nil =>
      exact Nat.le_refl 0
  | cons e es ih =>
      have hValue := length_tokens_lt e.value
      have hKey := List.length_pos_of_ne_nil e.key.ne_nil
      have hSteps : Layout.steps (e :: es) = 2 + e.value.tokens.length + Layout.steps es := rfl
      rw [hSteps, List.flatMap_cons, List.length_append, Entry.render, List.length_append,
        List.length_cons]
      omega

/-- The tokens of a plain document are those of its entries, in one map. -/
theorem tokens?_render {es : List Entry} (hEntries : es ≠ []) :
    tokens? (es.flatMap Entry.render) =
      some (.blockMapStart :: (es.flatMap Entry.tokens ++ [.blockEnd])) := by
  cases es with
  | nil => exact absurd rfl hEntries
  | cons e es =>
      rcases Layout.leads_entry e (.inl rfl) (isLineStart_entries es) 0 [] with ⟨line, hFirst⟩
      rcases Layout.leads_entries es line (e.tokens.reverse ++ [.blockMapStart]) with
        ⟨line', hOthers⟩
      have hAll : Layout.Leads (Layout.steps (e :: es))
          (.ofText ((e :: es).flatMap Entry.render)) _ := hFirst.trans hOthers
      rcases Nat.exists_eq_add_of_le' (steps_le_length (e :: es)) with ⟨spare, hLength⟩
      have hBound : ((e :: es).flatMap Entry.render).length + 1 =
          spare + 1 + Layout.steps (e :: es) := by
        rw [hLength, Nat.add_right_comm]
      rw [tokens?, prepare_eq_self (isPlainChar_entries _), Option.bind_eq_bind, Option.bind_some,
        hBound, hAll, Layout.readFrom_end]
      simp

end Yaml
end MemberNames
