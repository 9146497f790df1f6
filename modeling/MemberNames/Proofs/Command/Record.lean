import MemberNames.Proofs.Command.Check
import MemberNames.Proofs.Name.Message
import Mathlib.Algebra.BigOperators.Group.List.Basic
import Mathlib.Algebra.GroupWithZero.Nat

/-!
# How many lines records make

A check in text form writes one record for each line that is not blank: on `out` for a name, on
`err` for a refusal. A record ends in a newline. It holds another one exactly where a value of the
name holds one, or where the reason quotes one. A line brings that about only by an escape or by a
hexadecimal value, so that lines without backslashes and number signs make one line of output each.

* `Command.told`: what a record says of its line
* `Command.length_filterMap_add`: how many records there are
* `Command.count_newline_flatMap`: how many lines records make
* `Command.check_text_records`: the records of an input
-/

namespace MemberNames
namespace Command

variable {rules : Rules}

/-! ## What records say -/

/-- What a record says of a line: the canonical text of its name, or why it is refused. -/
def told (rules : Rules) (line : Text) : Text :=
  match Name.parseWith line rules with
  | .ok n => n.canonical
  | .error e => e.message

/-- Every line that counts has a name or a refusal, and none has both. -/
theorem length_filterMap_add (rules : Rules) (entries : List (Text × Nat)) :
    (entries.filterMap (name? rules)).length + (entries.filterMap (refusal? rules)).length =
      entries.length := by
  have hRefusal : ∀ entry, (refusal? rules entry).isSome = !(name? rules entry).isSome := by
    intro entry
    rw [refusal?, name?]
    cases Name.parseWith entry.1 rules with
    | ok n => rfl
    | error e => rfl
  rw [List.length_filterMap_eq_countP, List.length_filterMap_eq_countP,
    List.length_eq_countP_add_countP fun entry => (name? rules entry).isSome]
  simp only [hRefusal, Bool.not_eq_true, Bool.decide_eq_false]

/-! ## Newlines in records -/

/-- Records with one newline at the end of each, and others that `extra` tells of. -/
theorem count_newline_flatMap {α : Type} {record extra : α → Text} {rs : List α}
    (h : ∀ r ∈ rs, (record r).count '\n' = (extra r).count '\n' + 1) :
    (rs.flatMap record).count '\n' = rs.length + (rs.map fun r => (extra r).count '\n').sum := by
  induction rs with
  | nil =>
      rfl
  | cons r rs ih =>
      rcases List.forall_mem_cons.1 h with ⟨hHead, hTail⟩
      rw [List.flatMap_cons, List.count_append, hHead, ih hTail, List.map_cons, List.sum_cons,
        List.length_cons]
      omega

theorem count_newline_okRecord (n : Name) :
    (okRecord n).count '\n' = n.canonical.count '\n' + 1 := by
  have hFront : "ok\t".toList.count '\n' = 0 := by decide
  rw [okRecord, List.count_append, List.count_append, hFront, Nat.zero_add]
  rfl

theorem Refusal.count_newline_record {r : Refusal} (h : '\n' ∉ r.line) :
    r.record.count '\n' = r.error.message.count '\n' + 1 := by
  have hFront : '\n' ∉ "error\tline ".toList ++ Text.decimal r.number :=
    List.not_mem_append (by decide) (Text.newline_not_mem_decimal _)
  unfold record
  rw [List.count_append, List.count_append, List.count_eq_zero_of_not_mem hFront,
    List.count_cons_of_ne (by decide), List.count_append, List.count_eq_zero_of_not_mem h,
    List.count_cons_of_ne (by decide), Nat.zero_add, Nat.zero_add]
  rfl

/-- Records that say nothing with a newline are one line each. -/
theorem count_newline_flatMap_of_not_mem {α : Type} {record extra : α → Text} {rs : List α}
    (h : ∀ r ∈ rs, (record r).count '\n' = (extra r).count '\n' + 1)
    (hExtra : ∀ r ∈ rs, '\n' ∉ extra r) : (rs.flatMap record).count '\n' = rs.length := by
  have hZero : ∀ k ∈ rs.map fun r => (extra r).count '\n', k = 0 := by
    intro k hk
    rcases List.mem_map.1 hk with ⟨r, hr, rfl⟩
    exact List.count_eq_zero_of_not_mem (hExtra r hr)
  rw [count_newline_flatMap h, List.sum_eq_zero hZero, Nat.add_zero]

/-! ## Lines that make further lines -/

variable {line : Text}

/-- Only an escape or a hexadecimal value brings a newline into a canonical text. -/
theorem mem_of_newline_mem_canonical {n : Name} (h : Name.parseWith line rules = .ok n)
    (hLine : '\n' ∉ line) (hMem : '\n' ∈ n.canonical) : '\\' ∈ line ∨ '#' ∈ line := by
  rcases n.newline_mem_canonical_iff.1 hMem with ⟨a, v, hv, hNewline⟩
  exact (Name.mem_of_parseWith h hv hNewline).resolve_left hLine

/-- The same goes for messages, but for what a policy says in words of its own. -/
theorem mem_of_newline_mem_message {e : NameError} (h : Name.parseWith line rules = .error e)
    (hLine : '\n' ∉ line) (hMem : '\n' ∈ e.message) :
    ('\\' ∈ line ∨ '#' ∈ line) ∨
      ∃ v reason, rules.organisationPolicy v = .error (.other reason) ∧ '\n' ∈ reason := by
  rcases (Name.newline_mem_message_of_parseWith_iff h hLine).1 hMem with
    ⟨code, rfl, hCode⟩ | ⟨reason, rfl, hReason⟩
  · exact .inl ((Name.mem_country_of_parseWith h hCode).resolve_left hLine)
  · rcases Name.exists_policy_of_parseWith h with ⟨v, hPolicy⟩
    exact .inr ⟨v, reason, hPolicy, hReason⟩

theorem newline_not_mem_told
    (hPolicy : ∀ v reason, rules.organisationPolicy v = .error (.other reason) → '\n' ∉ reason)
    (hLine : '\n' ∉ line) (hEscape : '\\' ∉ line) (hHash : '#' ∉ line) :
    '\n' ∉ told rules line := by
  intro hMem
  rw [told] at hMem
  split at hMem
  · rename_i n hName
    exact (mem_of_newline_mem_canonical hName hLine hMem).elim hEscape hHash
  · rename_i e hError
    rcases mem_of_newline_mem_message hError hLine hMem with hSpelled | ⟨v, reason, hv, hReason⟩
    · exact hSpelled.elim hEscape hHash
    · exact hPolicy v reason hv hReason

/-! ## The records of an input -/

variable {lines : List Text}

theorem told_of_mem_names {n : Name}
    (hn : n ∈ (Lines.entriesFrom 1 lines).filterMap (name? rules)) :
    ∃ line ∈ lines, told rules line = n.canonical := by
  rcases List.mem_filterMap.1 hn with ⟨entry, hEntry, hSome⟩
  refine ⟨entry.1, Lines.mem_of_mem_entriesFrom hEntry, ?_⟩
  rw [told, name?_eq_some_iff.1 hSome]

theorem line_of_mem_refusals {r : Refusal}
    (hr : r ∈ (Lines.entriesFrom 1 lines).filterMap (refusal? rules)) :
    r.line ∈ lines ∧ Name.parseWith r.line rules = .error r.error := by
  rcases List.mem_filterMap.1 hr with ⟨entry, hEntry, hSome⟩
  rcases refusal?_eq_some_iff.1 hSome with ⟨rfl, hError⟩
  exact ⟨Lines.mem_of_mem_entriesFrom hEntry, hError⟩

theorem told_of_mem_refusals {r : Refusal}
    (hr : r ∈ (Lines.entriesFrom 1 lines).filterMap (refusal? rules)) :
    told rules r.line = r.error.message := by
  rw [told, (line_of_mem_refusals hr).2]

/-- A check in text form writes the names on `out` and the refusals on `err`, each in the order of
their lines and one record for each line that is not blank. There is one newline for each record,
and one for each newline of a canonical text or a message. If there are none of these, then there
are as many lines of output as lines that are not blank. A line without a backslash and a number
sign never brings one about, unless a policy reports newlines of its own. -/
theorem check_text_records (rules : Rules) {input : Octets} {lines : List Text}
    (h : Lines.split input = lines.map Utf8.encode) :
    let output := (check false rules .text input).output
    let entries := Lines.entriesFrom 1 lines
    let names := entries.filterMap (name? rules)
    let refusals := entries.filterMap (refusal? rules)
    let count := lines.countP fun line => !Text.isBlank line
    output.out = names.flatMap okRecord ∧
      output.err = refusals.flatMap Refusal.record ∧
      names.length + refusals.length = count ∧
      output.out.count '\n' = names.length + (names.map fun n => n.canonical.count '\n').sum ∧
      output.err.count '\n' =
        refusals.length + (refusals.map fun r => r.error.message.count '\n').sum ∧
      (∀ n ∈ names, '\n' ∈ n.canonical ↔ ∃ a v, n.get? a = some v ∧ '\n' ∈ v) ∧
      (∀ r ∈ refusals, '\n' ∈ r.error.message ↔
        (∃ code, r.error = .invalidCountryCode code ∧ '\n' ∈ code) ∨
          ∃ reason, r.error = .invalidOrganisation (.other reason) ∧ '\n' ∈ reason) ∧
      ((∀ line ∈ lines, '\n' ∉ told rules line) →
        output.out.count '\n' + output.err.count '\n' = count) ∧
      ((∀ v reason, rules.organisationPolicy v = .error (.other reason) → '\n' ∉ reason) →
        ∀ line ∈ lines, '\\' ∉ line → '#' ∉ line → '\n' ∉ told rules line) := by
  intro output entries names refusals count
  have hEntries : Lines.entries input = entries := Lines.entries_eq_of_split h
  have hOut : output.out = names.flatMap okRecord := by
    rw [check_out_text, hEntries]
  have hErr : output.err = refusals.flatMap Refusal.record := by
    rw [check_err_text, hEntries]
  have hLength : names.length + refusals.length = count := by
    rw [length_filterMap_add, Lines.length_entriesFrom]
  -- A line of the input holds no newline itself.
  have hLine : ∀ line ∈ lines, '\n' ∉ line := fun line hMem => Lines.newline_not_mem_of_split h hMem
  have hName : ∀ n ∈ names, (okRecord n).count '\n' = n.canonical.count '\n' + 1 :=
    fun n _ => count_newline_okRecord n
  have hRefusal : ∀ r ∈ refusals, r.record.count '\n' = r.error.message.count '\n' + 1 :=
    fun r hr => r.count_newline_record (hLine r.line (line_of_mem_refusals hr).1)
  refine ⟨hOut, hErr, hLength, ?_, ?_, ?_, ?_, ?_, ?_⟩
  · rw [hOut]
    exact count_newline_flatMap hName
  · rw [hErr]
    exact count_newline_flatMap hRefusal
  · intro n _
    exact n.newline_mem_canonical_iff
  · intro r hr
    rcases line_of_mem_refusals hr with ⟨hMem, hError⟩
    exact Name.newline_mem_message_of_parseWith_iff hError (hLine r.line hMem)
  · intro hTold
    have hNames : (names.flatMap okRecord).count '\n' = names.length := by
      refine count_newline_flatMap_of_not_mem hName fun n hn => ?_
      rcases told_of_mem_names hn with ⟨line, hMem, hSame⟩
      rw [← hSame]
      exact hTold line hMem
    have hRefusals : (refusals.flatMap Refusal.record).count '\n' = refusals.length := by
      refine count_newline_flatMap_of_not_mem hRefusal fun r hr => ?_
      rw [← told_of_mem_refusals hr]
      exact hTold r.line (line_of_mem_refusals hr).1
    rw [hOut, hErr, hNames, hRefusals, hLength]
  · intro hPolicy line hMem hEscape hHash
    exact newline_not_mem_told hPolicy (hLine line hMem) hEscape hHash

/-- An accepted line, a blank one and a line without an equals sign. -/
theorem check_text_records_plain :
    let lines : List Text := ["O=JP,L=K,C=DE".toList, " ".toList, "O".toList]
    let input := Utf8.encode (lines.flatMap (· ++ ['\n']))
    let output := (check false .standard .text input).output
    Lines.split input = lines.map Utf8.encode ∧
      (∀ v reason, Rules.standard.organisationPolicy v = .error (.other reason) → '\n' ∉ reason) ∧
        (∀ line ∈ lines, '\n' ∉ told .standard line) ∧
          output.out.count '\n' + output.err.count '\n' = 2 := by
  intro lines input output
  have hSplit : Lines.split input = lines.map Utf8.encode := by decide +kernel
  have hEscape : ∀ line ∈ lines, '\\' ∉ line := by decide +kernel
  have hHash : ∀ line ∈ lines, '#' ∉ line := by decide +kernel
  have hPolicy : ∀ v reason,
      Rules.standard.organisationPolicy v = .error (.other reason) → '\n' ∉ reason :=
    fun v reason hOther => absurd hOther (OrganisationPolicy.legalName_ne_other v reason)
  rcases check_text_records .standard hSplit with ⟨-, -, -, -, -, -, -, hCount, hPlain⟩
  have hTold : ∀ line ∈ lines, '\n' ∉ told .standard line := fun line hMem =>
    hPlain hPolicy line hMem (hEscape line hMem) (hHash line hMem)
  exact ⟨hSplit, hPolicy, hTold, hCount hTold⟩

/-- One line of input with two escapes of a newline makes three lines of output, and the one in the
middle looks like the record of a name that is on no line. -/
theorem check_text_forged_record :
    let line : Text := "O=JP,L=\"x\\0Aok\tO=KQ, L=P, C=FR\\0A\",C=DE".toList
    let forged := Name.minimal "KQ".toList "P".toList "FR".toList
    let input := Utf8.encode (line ++ ['\n'])
    let output := (check false .standard .text input).output
    Lines.split input = [line].map Utf8.encode ∧ Text.isBlank line = false ∧
      Text.splitOn '\n' output.out =
        ["ok\tO=JP, L=\"x".toList, "ok\t".toList ++ forged.canonical, "\", C=DE".toList, []] ∧
        output.out.count '\n' = 3 ∧ output.err = [] := by
  refine ⟨?_, ?_, ?_, ?_, ?_⟩
  · decide +kernel
  · decide +kernel
  · decide +kernel
  · decide +kernel
  · decide +kernel

end Command
end MemberNames
