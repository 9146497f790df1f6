import MemberNames.Command.Check
import MemberNames.Proofs.Text.Utf8

/-!
# The lines of an input

Every input is a number of complete lines with a piece behind them that has no end and may be empty,
so that facts about inputs are proved line by line. An input without such a piece can be continued:
its lines come first among those of the whole and keep their numbers.

* `Lines.induction`, `Lines.split_last`, `Lines.split_line`: the lines one by one
* `Lines.IsClosed`, `Lines.split_append`: inputs that can be continued
* `Lines.IsText`, `Lines.exists_unreadable`: inputs that can be read to their end, and others
* `Lines.entries`, `Lines.entries_append`: the lines that count, with their numbers
* `Lines.join`, `Lines.split_join`, `Lines.map_fst_entries_join`: texts written as lines
-/

namespace MemberNames
namespace Lines

/-! ## Line by line -/

@[elab_as_elim]
theorem induction {P : Octets → Prop} (input : Octets) (last : ∀ s, newline ∉ s → P s)
    (line : ∀ s rest, newline ∉ s → P rest → P (s ++ newline :: rest)) : P input := by
  by_cases h : newline ∈ input
  · rcases List.eq_append_cons_of_mem h with ⟨s, rest, hInput, hs⟩
    have hShorter : rest.length < input.length := by
      rw [hInput, List.length_append, List.length_cons]
      omega
    rw [hInput]
    exact line s rest hs (induction rest last line)
  · exact last input h
termination_by input.length

/-- A complete line without its end. -/
def content (s : Octets) : Octets :=
  (dropReturn s.reverse).reverse

theorem splitFrom_append {s : Octets} (h : newline ∉ s) (line rest : Octets) :
    splitFrom line (s ++ rest) = splitFrom (s.reverse ++ line) rest := by
  induction s generalizing line with
  | nil =>
      rfl
  | cons b s ih =>
      rw [List.mem_cons, not_or] at h
      rw [List.cons_append, splitFrom, if_neg (Ne.symm h.1), ih h.2, List.reverse_cons,
        List.append_assoc]
      rfl

theorem split_last {s : Octets} (h : newline ∉ s) :
    split s = if s.isEmpty then [] else [s] := by
  have hSplit := splitFrom_append h [] []
  rw [List.append_nil, List.append_nil] at hSplit
  rw [split, hSplit, splitFrom, List.reverse_reverse, List.isEmpty_reverse]

theorem split_line {s : Octets} (h : newline ∉ s) (rest : Octets) :
    split (s ++ newline :: rest) = content s :: split rest := by
  rw [split, splitFrom_append h, List.append_nil, splitFrom, if_pos rfl]
  rfl

theorem mem_of_mem_content {s : Octets} {b : UInt8} (h : b ∈ content s) : b ∈ s := by
  rw [content, List.mem_reverse] at h
  rw [← List.mem_reverse]
  cases hs : s.reverse with
  | nil =>
      rw [hs] at h
      exact h
  | cons c line =>
      rw [hs, dropReturn] at h
      split at h
      · exact List.mem_cons_of_mem _ h
      · exact h

theorem not_mem_of_mem_split {input line : Octets} (h : line ∈ split input) : newline ∉ line := by
  induction input using Lines.induction with
  | last s hs =>
      rw [split_last hs] at h
      split at h
      · cases h
      · rw [List.mem_singleton.1 h]
        exact hs
  | line s rest hs ih =>
      rw [split_line hs] at h
      rcases List.mem_cons.1 h with rfl | hMem
      · exact fun hContent => hs (mem_of_mem_content hContent)
      · exact ih hMem

/-! ## Inputs that can be continued -/

/-- Whether no line is left without an end. -/
def IsClosed (input : Octets) : Prop :=
  input = [] ∨ input.getLast? = some newline

instance (input : Octets) : Decidable (IsClosed input) :=
  inferInstanceAs (Decidable (_ ∨ _))

theorem eq_nil_of_isClosed {s : Octets} (hs : newline ∉ s) (h : IsClosed s) : s = [] := by
  rcases h with rfl | hLast
  · rfl
  · exact absurd (List.mem_of_getLast? hLast) hs

theorem isClosed_line_iff {s rest : Octets} :
    IsClosed (s ++ newline :: rest) ↔ IsClosed rest := by
  cases rest with
  | nil => simp [IsClosed]
  | cons b rest => simp [IsClosed]

theorem split_append {a : Octets} (h : IsClosed a) (b : Octets) :
    split (a ++ b) = split a ++ split b := by
  induction a using Lines.induction with
  | last s hs =>
      rw [eq_nil_of_isClosed hs h]
      rfl
  | line s rest hs ih =>
      rw [List.append_assoc, List.cons_append, split_line hs, split_line hs,
        ih (isClosed_line_iff.1 h), List.cons_append]

theorem IsClosed.append {a b : Octets} (ha : IsClosed a) (hb : IsClosed b) :
    IsClosed (a ++ b) := by
  rcases hb with rfl | hLast
  · rw [List.append_nil]
    exact ha
  · refine .inr ?_
    rw [List.getLast?_append, hLast]
    rfl

/-- Each line has one end. -/
theorem length_split {input : Octets} (h : IsClosed input) :
    (split input).length = input.count newline := by
  induction input using Lines.induction with
  | last s hs =>
      rw [eq_nil_of_isClosed hs h]
      rfl
  | line s rest hs ih =>
      rw [split_line hs, List.length_cons, ih (isClosed_line_iff.1 h), List.count_append,
        List.count_eq_zero.2 hs, List.count_cons_self, Nat.zero_add]

/-! ## Lines that can be read -/

/-- Whether every line of an input is UTF-8. -/
def IsText (input : Octets) : Prop :=
  ∀ line ∈ split input, (Utf8.decode? line).isSome

instance (input : Octets) : Decidable (IsText input) :=
  inferInstanceAs (Decidable (∀ line ∈ split input, _))

theorem IsText.append {a b : Octets} (hClosed : IsClosed a) (ha : IsText a) (hb : IsText b) :
    IsText (a ++ b) := by
  rw [IsText, split_append hClosed]
  exact List.forall_mem_append.2 ⟨ha, hb⟩

/-- The texts of lines, up to the first one that is none. -/
def readable : List Octets → List Text
  | [] => []
  | line :: lines =>
    match Utf8.decode? line with
    | none => []
    | some s => s :: readable lines

theorem readable_append {lines : List Octets} (h : ∀ line ∈ lines, (Utf8.decode? line).isSome)
    (lines' : List Octets) : readable (lines ++ lines') = readable lines ++ readable lines' := by
  induction lines with
  | nil =>
      rfl
  | cons line lines ih =>
      rcases List.forall_mem_cons.1 h with ⟨hLine, hLines⟩
      rcases Option.isSome_iff_exists.1 hLine with ⟨s, hs⟩
      simp only [List.cons_append, readable, hs, ih hLines]

theorem length_readable {lines : List Octets} (h : ∀ line ∈ lines, (Utf8.decode? line).isSome) :
    (readable lines).length = lines.length := by
  induction lines with
  | nil =>
      rfl
  | cons line lines ih =>
      rcases List.forall_mem_cons.1 h with ⟨hLine, hLines⟩
      rcases Option.isSome_iff_exists.1 hLine with ⟨s, hs⟩
      simp only [readable, hs, List.length_cons, ih hLines]

/-- An input that is not text is complete lines of text, with a line behind them that is none. -/
theorem exists_unreadable {input : Octets} (h : ¬ IsText input) :
    ∃ front back line rest, input = front ++ back ∧ IsClosed front ∧ IsText front ∧
      split back = line :: rest ∧ Utf8.decode? line = none := by
  have hNothing : IsText [] := List.forall_mem_nil _
  induction input using Lines.induction with
  | last s hs =>
      have hSplit := split_last hs
      rw [IsText, hSplit] at h
      split at hSplit
      · rename_i hEmpty
        rw [if_pos hEmpty] at h
        exact absurd (List.forall_mem_nil _) h
      · rename_i hNe
        rw [if_neg hNe, List.forall_mem_singleton, Option.not_isSome_iff_eq_none] at h
        exact ⟨[], s, s, [], rfl, .inl rfl, hNothing, hSplit, h⟩
  | line s rest hs ih =>
      cases hLine : Utf8.decode? (content s) with
      | none =>
          exact ⟨[], _, _, _, rfl, .inl rfl, hNothing, split_line hs rest, hLine⟩
      | some t =>
          -- The first line can be read, so that the one that cannot be stands behind it.
          have hHead : (Utf8.decode? (content s)).isSome := by rw [hLine]; rfl
          have hRest : ¬ IsText rest := by
            intro hRest
            apply h
            rw [IsText, split_line hs]
            exact List.forall_mem_cons.2 ⟨hHead, hRest⟩
          rcases ih hRest with ⟨front, back, line, lines, rfl, hClosed, hText, hBack, hNone⟩
          refine ⟨s ++ newline :: front, back, line, lines, ?_, isClosed_line_iff.2 hClosed, ?_,
            hBack, hNone⟩
          · rw [List.append_assoc, List.cons_append]
          · rw [IsText, split_line hs]
            exact List.forall_mem_cons.2 ⟨hHead, hText⟩

/-- A newline in a line would be the octet that ends it. -/
theorem newline_not_mem_of_split {input : Octets} {lines : List Text}
    (h : split input = lines.map Utf8.encode) {line : Text} (hLine : line ∈ lines) :
    '\n' ∉ line := by
  have hMem : Utf8.encode line ∈ split input := by
    rw [h]
    exact List.mem_map_of_mem hLine
  intro hNewline
  apply not_mem_of_mem_split hMem
  exact List.mem_flatMap.2 ⟨'\n', hNewline, List.mem_singleton_self _⟩

/-! ## Lines that count -/

/-- The texts that are not blank, each with its place, the first of which is `number`. -/
def entriesFrom (number : Nat) (texts : List Text) : List (Text × Nat) :=
  (texts.zipIdx number).filter fun entry => !Text.isBlank entry.1

/-- The lines that are not blank, each with its number in the input, up to the first line that is
not UTF-8. -/
def entries (input : Octets) : List (Text × Nat) :=
  entriesFrom 1 (readable (split input))

theorem entriesFrom_append (number : Nat) (texts texts' : List Text) :
    entriesFrom number (texts ++ texts') =
      entriesFrom number texts ++ entriesFrom (number + texts.length) texts' := by
  rw [entriesFrom, List.zipIdx_append, List.filter_append]
  rfl

theorem entriesFrom_add (count number : Nat) (texts : List Text) :
    entriesFrom (number + count) texts =
      (entriesFrom number texts).map fun (s, i) => (s, i + count) := by
  induction texts generalizing number with
  | nil =>
      rfl
  | cons s texts ih =>
      have hNext := ih (number + 1)
      rw [Nat.add_right_comm] at hNext
      simp only [entriesFrom, List.zipIdx_cons, List.filter_cons] at hNext ⊢
      split
      · rw [List.map_cons, hNext]
      · exact hNext

/-- Lines behind others keep their texts and count on. -/
theorem entries_append {a : Octets} (hClosed : IsClosed a) (hText : IsText a) (b : Octets) :
    entries (a ++ b) =
      entries a ++ (entries b).map fun (s, i) => (s, i + a.count newline) := by
  rw [entries, split_append hClosed, readable_append hText, entriesFrom_append,
    length_readable hText, length_split hClosed, entriesFrom_add]
  rfl

/-- Nothing counts from a line on that cannot be read. -/
theorem entries_of_unreadable {front back line : Octets} {rest : List Octets}
    (hClosed : IsClosed front) (hText : IsText front) (hBack : split back = line :: rest)
    (hLine : Utf8.decode? line = none) : entries (front ++ back) = entries front := by
  have hNone : entries back = [] := by
    rw [entries, hBack, readable, hLine]
    rfl
  rw [entries_append hClosed hText, hNone, List.map_nil, List.append_nil]

theorem mem_of_mem_entriesFrom {number : Nat} {texts : List Text} {entry : Text × Nat}
    (h : entry ∈ entriesFrom number texts) : entry.1 ∈ texts :=
  List.fst_mem_of_mem_zipIdx (List.mem_filter.1 h).1

theorem length_entriesFrom (number : Nat) (texts : List Text) :
    (entriesFrom number texts).length = texts.countP fun s => !Text.isBlank s := by
  induction texts generalizing number with
  | nil =>
      rfl
  | cons s texts ih =>
      have hNext := ih (number + 1)
      simp only [entriesFrom, List.zipIdx_cons, List.filter_cons, List.countP_cons] at hNext ⊢
      split
      · rw [List.length_cons, hNext]
      · exact hNext

/-- All lines of an input in UTF-8 count that are not blank. -/
theorem entries_eq_of_split {input : Octets} {lines : List Text}
    (h : split input = lines.map Utf8.encode) : entries input = entriesFrom 1 lines := by
  have hReadable : ∀ texts : List Text, readable (texts.map Utf8.encode) = texts := by
    intro texts
    induction texts with
    | nil =>
        rfl
    | cons s texts ih =>
        simp only [List.map_cons, readable, Utf8.decode?_encode, ih]
  rw [entries, h, hReadable]

/-! ## Texts written as lines -/

/-- Every text with a newline behind it. -/
def join (texts : List Text) : Octets :=
  Utf8.encode (texts.flatMap (· ++ ['\n']))

theorem join_cons (s : Text) (texts : List Text) :
    join (s :: texts) = Utf8.encode s ++ newline :: join texts := by
  rw [join, List.flatMap_cons, Utf8.encode_append, Utf8.encode_append, List.append_assoc]
  rfl

/-- Only a carriage return at its end is lost from a line. -/
theorem content_eq_self {s : Octets} (h : s.getLast? ≠ some carriageReturn) : content s = s := by
  rw [List.getLast?_eq_head?_reverse] at h
  rw [content]
  cases hs : s.reverse with
  | nil =>
      rw [dropReturn, ← hs, List.reverse_reverse]
  | cons b line =>
      have hb : b ≠ carriageReturn := by
        rintro rfl
        exact h (by rw [hs]; rfl)
      rw [dropReturn, if_neg hb, ← hs, List.reverse_reverse]

/-- Texts without newlines and without a carriage return at their end are the lines again. -/
theorem split_join {texts : List Text} (hNewline : ∀ s ∈ texts, '\n' ∉ s)
    (hReturn : ∀ s ∈ texts, s.getLast? ≠ some '\r') :
    split (join texts) = texts.map Utf8.encode := by
  induction texts with
  | nil =>
      rfl
  | cons s texts ih =>
      rcases List.forall_mem_cons.1 hNewline with ⟨hNewlineHead, hNewlineTail⟩
      rcases List.forall_mem_cons.1 hReturn with ⟨hReturnHead, hReturnTail⟩
      have hInside : newline ∉ Utf8.encode s :=
        mt (Utf8.mem_encode_iff (c := '\n') (by decide)).1 hNewlineHead
      have hEnd : (Utf8.encode s).getLast? ≠ some carriageReturn :=
        mt (Utf8.getLast?_of_getLast?_encode (c := '\r') (by decide)) hReturnHead
      rw [join_cons, split_line hInside, content_eq_self hEnd, ih hNewlineTail hReturnTail,
        List.map_cons]

theorem isText_join {texts : List Text} (hNewline : ∀ s ∈ texts, '\n' ∉ s)
    (hReturn : ∀ s ∈ texts, s.getLast? ≠ some '\r') : IsText (join texts) := by
  intro line hLine
  rw [split_join hNewline hReturn] at hLine
  rcases List.mem_map.1 hLine with ⟨s, -, rfl⟩
  rw [Utf8.decode?_encode]
  rfl

/-- If none of them is blank, then all of them count. -/
theorem map_fst_entries_join {texts : List Text} (hNewline : ∀ s ∈ texts, '\n' ∉ s)
    (hReturn : ∀ s ∈ texts, s.getLast? ≠ some '\r') (hBlank : ∀ s ∈ texts, Text.isBlank s = false) :
    (entries (join texts)).map Prod.fst = texts := by
  have hAll : ∀ entry ∈ texts.zipIdx 1, (!Text.isBlank entry.1) = true := by
    intro entry hEntry
    rw [hBlank _ (List.fst_mem_of_mem_zipIdx hEntry)]
    rfl
  rw [entries_eq_of_split (split_join hNewline hReturn), entriesFrom, List.filter_eq_self.2 hAll,
    List.zipIdx_map_fst]

end Lines
end MemberNames
