import MemberNames.Proofs.Command.Lines
import MemberNames.Proofs.Report
import Mathlib.Logic.Basic

/-!
# Checking in batches

A check reports on every line that is not blank, by its number in the input. What it writes about an
input and its continuation is what it writes about each of them alone, except that the lines of the
continuation count on. A line that cannot be read ends the check and takes nothing back.

* `Command.reports`, `Command.written`: the reports of a check
* `Command.check_output`, `Command.check_ending_of_isText`, `Command.check_ending_of_unreadable`:
  what a check writes and how it ends
* `Command.okRecord`, `Command.Refusal.record`: the records of a check in text form
* `Command.check_out_text`, `Command.check_err_text`: where these records are written
* `Command.check_append`: an input and its continuation
-/

namespace MemberNames
namespace Command

variable {quiet : Bool} {rules : Rules} {format : Format} {input : Octets}

/-! ## Reports -/

/-- The report on a line by its number. -/
def lineReport (rules : Rules) (entry : Text × Nat) : LineReport :=
  ⟨entry.2, Report.ofResult entry.1 (Name.parseWith entry.1 rules)⟩

/-- The reports on the lines of an input. -/
def reports (rules : Rules) (input : Octets) : List LineReport :=
  (Lines.entries input).map (lineReport rules)

/-- The reports that a check writes: with `quiet`, only those on rejected lines. -/
def written (quiet : Bool) (rules : Rules) (input : Octets) : List LineReport :=
  (reports rules input).filter fun r => !(quiet && r.report.isAccepted)

/-- The exit code for an input that is read to its end. -/
def exitCode (rules : Rules) (input : Octets) : Nat :=
  Report.exitCode ((reports rules input).map LineReport.report)

theorem written_false (rules : Rules) (input : Octets) :
    written false rules input = reports rules input := by
  rw [written]
  exact List.filter_eq_self.2 fun _ _ => rfl

theorem checkLines_eq (rules : Rules) (number : Nat) (lines : List Octets) :
    checkLines rules number lines =
      ((Lines.entriesFrom number (Lines.readable lines)).map (lineReport rules),
        if (Lines.readable lines).length = lines.length then none
        else some (number + (Lines.readable lines).length)) := by
  induction lines generalizing number with
  | nil =>
      rfl
  | cons line lines ih =>
      cases hLine : Utf8.decode? line with
      | none =>
          simp [checkLines, Lines.readable, hLine, Lines.entriesFrom]
      | some s =>
          simp only [checkLines, Lines.readable, hLine, ih, Lines.entriesFrom, List.zipIdx_cons,
            List.filter_cons, List.length_cons, Nat.add_right_cancel_iff, Nat.add_right_comm number,
            ← Nat.add_assoc]
          cases Text.isBlank s <;> rfl

theorem check_output (quiet : Bool) (rules : Rules) (format : Format) (input : Octets) :
    (check quiet rules format input).output =
      .concat ((written quiet rules input).map (LineReport.print format)) := by
  simp only [check, checkLines_eq]
  rfl

theorem check_out (quiet : Bool) (rules : Rules) (format : Format) (input : Octets) :
    (check quiet rules format input).output.out =
      (written quiet rules input).flatMap fun r => (r.print format).out := by
  simp only [check_output, Output.concat, List.flatMap_map]

theorem check_err (quiet : Bool) (rules : Rules) (format : Format) (input : Octets) :
    (check quiet rules format input).output.err =
      (written quiet rules input).flatMap fun r => (r.print format).err := by
  simp only [check_output, Output.concat, List.flatMap_map]

/-! ## Records -/

/-- The record of a name. -/
def okRecord (n : Name) : Text :=
  "ok\t".toList ++ n.canonical ++ ['\n']

/-- A line that is refused, with its number and the reason. -/
structure Refusal where
  number : Nat
  line : Text
  error : NameError

/-- The record of a refusal. -/
def Refusal.record (r : Refusal) : Text :=
  "error\tline ".toList ++ Text.decimal r.number ++ '\t' :: (r.line ++ '\t' :: r.error.message) ++
    ['\n']

/-- The name on a line, if there is one. -/
def name? (rules : Rules) (entry : Text × Nat) : Option Name :=
  match Name.parseWith entry.1 rules with
  | .ok n => some n
  | .error _ => none

/-- The refusal of a line, if there is one. -/
def refusal? (rules : Rules) (entry : Text × Nat) : Option Refusal :=
  match Name.parseWith entry.1 rules with
  | .ok _ => none
  | .error e => some ⟨entry.2, entry.1, e⟩

variable {entry : Text × Nat}

theorem name?_eq_some_iff {n : Name} :
    name? rules entry = some n ↔ Name.parseWith entry.1 rules = .ok n := by
  rw [name?]
  cases Name.parseWith entry.1 rules with
  | ok n' => simp
  | error e => simp

theorem refusal?_eq_some_iff {r : Refusal} :
    refusal? rules entry = some r ↔
      entry = (r.line, r.number) ∧ Name.parseWith r.line rules = .error r.error := by
  rcases entry with ⟨line, number⟩
  rcases r with ⟨number', line', e'⟩
  constructor
  · intro h
    rw [refusal?] at h
    split at h
    · cases h
    · rename_i e hError
      cases h
      exact ⟨rfl, hError⟩
  · rintro ⟨hEntry, hError⟩
    cases hEntry
    simp only [refusal?, hError]

/-- What is written about a line is its record. -/
theorem print_lineReport (rules : Rules) (entry : Text × Nat) :
    (lineReport rules entry).print .text =
      ⟨(name? rules entry).toList.flatMap okRecord,
        (refusal? rules entry).toList.flatMap Refusal.record⟩ := by
  rw [lineReport, name?, refusal?]
  cases Name.parseWith entry.1 rules with
  | ok n =>
      simp only [Option.toList_some, Option.toList_none, List.flatMap_singleton, List.flatMap_nil]
      rfl
  | error e =>
      simp only [Option.toList_some, Option.toList_none, List.flatMap_singleton, List.flatMap_nil]
      rfl

theorem err_print_of_accepted {r : LineReport} (h : r.report.isAccepted = true) :
    (r.print .text).err = [] := by
  rw [LineReport.print, Report.print, h]
  rfl

/-- Items that make nothing can be left out. -/
theorem flatMap_filter {α β : Type} {p : α → Bool} {f : α → List β}
    (h : ∀ a, p a = false → f a = []) (as : List α) : (as.filter p).flatMap f = as.flatMap f := by
  induction as with
  | nil =>
      rfl
  | cons a as ih =>
      rw [List.filter_cons, List.flatMap_cons]
      split
      · rw [List.flatMap_cons, ih]
      · rename_i hDropped
        rw [h a (Bool.of_not_eq_true hDropped), List.nil_append, ih]

theorem check_out_text (rules : Rules) (input : Octets) :
    (check false rules .text input).output.out =
      ((Lines.entries input).filterMap (name? rules)).flatMap okRecord := by
  rw [check_out, written_false, reports, List.flatMap_map, List.filterMap_eq_flatMap_toList,
    List.flatMap_assoc]
  simp only [print_lineReport]

/-- Names write nothing to `err`, so that it is the same with `quiet`. -/
theorem check_err_text (quiet : Bool) (rules : Rules) (input : Octets) :
    (check quiet rules .text input).output.err =
      ((Lines.entries input).filterMap (refusal? rules)).flatMap Refusal.record := by
  have hSilent : ∀ r : LineReport, (!(quiet && r.report.isAccepted)) = false →
      (r.print .text).err = [] := by
    intro r hDropped
    rw [Bool.not_eq_false', Bool.and_eq_true] at hDropped
    exact err_print_of_accepted hDropped.2
  rw [check_err, written, flatMap_filter hSilent, reports, List.flatMap_map,
    List.filterMap_eq_flatMap_toList, List.flatMap_assoc]
  simp only [print_lineReport]

theorem check_err_json (quiet : Bool) (rules : Rules) (input : Octets) :
    (check quiet rules .json input).output.err = [] := by
  rw [check_err, List.flatMap_eq_nil_iff]
  exact fun _ _ => rfl

/-! ## Endings -/

theorem check_ending (quiet : Bool) (rules : Rules) (format : Format) (input : Octets) :
    (check quiet rules format input).ending =
      if (Lines.readable (Lines.split input)).length = (Lines.split input).length then
        .finished (exitCode rules input)
      else .unreadable (1 + (Lines.readable (Lines.split input)).length) := by
  simp only [check, checkLines_eq]
  split
  · rename_i line hStop
    split at hStop
    · cases hStop
    · rename_i hLength
      rw [if_neg hLength, Option.some.inj hStop]
  · rename_i hStop
    split at hStop
    · rename_i hLength
      rw [if_pos hLength]
      rfl
    · cases hStop

theorem check_ending_of_isText (h : Lines.IsText input) :
    (check quiet rules format input).ending = .finished (exitCode rules input) := by
  rw [check_ending, if_pos (Lines.length_readable h)]

/-- The line that cannot be read comes right behind those that are. -/
theorem check_ending_of_unreadable {front back line : Octets} {rest : List Octets}
    (hClosed : Lines.IsClosed front) (hText : Lines.IsText front)
    (hBack : Lines.split back = line :: rest) (hLine : Utf8.decode? line = none) :
    (check quiet rules format (front ++ back)).ending =
      .unreadable (front.count Lines.newline + 1) := by
  have hReadable : (Lines.readable (Lines.split (front ++ back))).length =
      front.count Lines.newline := by
    rw [Lines.split_append hClosed, Lines.readable_append hText, hBack, Lines.readable, hLine,
      List.append_nil, Lines.length_readable hText, Lines.length_split hClosed]
  have hShorter : front.count Lines.newline ≠ (Lines.split (front ++ back)).length := by
    rw [Lines.split_append hClosed, List.length_append, Lines.length_split hClosed, hBack,
      List.length_cons]
    omega
  rw [check_ending, hReadable, if_neg hShorter, Nat.add_comm]

theorem exitCode_eq_one_iff :
    exitCode rules input = 1 ↔
      ∃ entry ∈ Lines.entries input, ∃ e, Name.parseWith entry.1 rules = .error e := by
  rw [exitCode, Report.exitCode_eq_one_iff, reports]
  simp only [List.mem_map, exists_exists_and_eq_and, lineReport, Report.isAccepted_ofResult]

/-! ## An input and its continuation -/

/-- The report with the number that its line has behind `count` other lines. -/
def LineReport.raise (count : Nat) (r : LineReport) : LineReport :=
  { r with number := r.number + count }

/-- Only text about rejected lines shows a number. -/
theorem out_print_raise (count : Nat) (r : LineReport) :
    ((r.raise count).print format).out = (r.print format).out := by
  rcases r with ⟨number, input, verdict⟩
  cases format <;> cases verdict <;> rfl

variable {a : Octets}

theorem reports_append (hClosed : Lines.IsClosed a) (hText : Lines.IsText a) (b : Octets) :
    reports rules (a ++ b) =
      reports rules a ++ (reports rules b).map (.raise (a.count Lines.newline)) := by
  rw [reports, Lines.entries_append hClosed hText, List.map_append, reports, reports, List.map_map,
    List.map_map]
  rfl

theorem written_append (hClosed : Lines.IsClosed a) (hText : Lines.IsText a) (b : Octets) :
    written quiet rules (a ++ b) =
      written quiet rules a ++ (written quiet rules b).map (.raise (a.count Lines.newline)) := by
  rw [written, reports_append hClosed hText, List.filter_append, List.filter_map]
  rfl

/-- Nothing is written about a line that cannot be read, or about what stands behind it. -/
theorem written_of_unreadable {front back line : Octets} {rest : List Octets}
    (hClosed : Lines.IsClosed front) (hText : Lines.IsText front)
    (hBack : Lines.split back = line :: rest) (hLine : Utf8.decode? line = none) :
    written quiet rules (front ++ back) = written quiet rules front := by
  rw [written, reports, Lines.entries_of_unreadable hClosed hText hBack hLine]
  rfl

theorem exitCode_append (hClosed : Lines.IsClosed a) (hText : Lines.IsText a) (b : Octets) :
    exitCode rules (a ++ b) = max (exitCode rules a) (exitCode rules b) := by
  rw [exitCode, reports_append hClosed hText, List.map_append, Report.exitCode_append, List.map_map]
  rfl

theorem check_out_append (hClosed : Lines.IsClosed a) (hText : Lines.IsText a) (b : Octets) :
    (check quiet rules format (a ++ b)).output.out =
      (check quiet rules format a).output.out ++ (check quiet rules format b).output.out := by
  simp only [check_out, written_append hClosed hText, List.flatMap_append, List.flatMap_map,
    out_print_raise]

theorem refusal?_add (rules : Rules) (count : Nat) (entry : Text × Nat) :
    refusal? rules (entry.1, entry.2 + count) =
      (refusal? rules entry).map fun r => { r with number := r.number + count } := by
  rw [refusal?, refusal?]
  cases Name.parseWith entry.1 rules with
  | ok n => rfl
  | error e => rfl

theorem refusals_append (hClosed : Lines.IsClosed a) (hText : Lines.IsText a) (b : Octets) :
    (Lines.entries (a ++ b)).filterMap (refusal? rules) =
      (Lines.entries a).filterMap (refusal? rules) ++
        ((Lines.entries b).filterMap (refusal? rules)).map fun r =>
          { r with number := r.number + a.count Lines.newline } := by
  rw [Lines.entries_append hClosed hText, List.filterMap_append, List.filterMap_map,
    List.map_filterMap]
  simp only [Function.comp_def, refusal?_add]

/-- Complete lines and what stands behind them are checked alike together and apart: `out` is the
same, and `err` but for the numbers of the later lines, which count on. Together they fail if one of
them does. If a line of the later part cannot be read, then the check ends at its number in the
whole and has written what it writes about all lines before. -/
theorem check_append (quiet : Bool) (rules : Rules) (format : Format) {a : Octets} (b : Octets)
    (hClosed : Lines.IsClosed a) (hText : Lines.IsText a) :
    let run := check quiet rules format
    let count := a.count Lines.newline
    let refusals := (Lines.entries b).filterMap (refusal? rules)
    let record (number : Nat) (r : Refusal) : Text :=
      "error\tline ".toList ++ Text.decimal number ++ '\t' :: (r.line ++ '\t' :: r.error.message) ++
        ['\n']
    (run (a ++ b)).output.out = (run a).output.out ++ (run b).output.out ∧
    (match format with
      | .text =>
        (run b).output.err = (refusals.flatMap fun r => record r.number r) ∧
          (run (a ++ b)).output.err =
            (run a).output.err ++ refusals.flatMap fun r => record (r.number + count) r
      | .json =>
        (run a).output.err = [] ∧ (run b).output.err = [] ∧ (run (a ++ b)).output.err = []) ∧
    (Lines.IsText b →
      ∃ c d, (run a).ending = .finished c ∧ (run b).ending = .finished d ∧
        (run (a ++ b)).ending = .finished (max c d)) ∧
    (¬ Lines.IsText b →
      ∃ front back line rest, b = front ++ back ∧ Lines.IsClosed front ∧ Lines.IsText front ∧
        Lines.split back = line :: rest ∧ Utf8.decode? line = none ∧
          let number := front.count Lines.newline + 1
          (run b).ending = .unreadable number ∧
            (run (a ++ b)).ending.message =
              some ("failed to read input line ".toList ++ Text.decimal (number + count)) ∧
              (run (a ++ b)).output = (run (a ++ front)).output) ∧
    ∀ input, Lines.IsText input →
      ∃ code ≤ 1, (run input).ending = .finished code ∧
        (code = 1 ↔
          ∃ entry ∈ Lines.entries input, ∃ e, Name.parseWith entry.1 rules = .error e) := by
  intro run count refusals record
  refine ⟨check_out_append hClosed hText b, ?_, ?_, ?_, ?_⟩
  · cases format with
    | text =>
        refine ⟨check_err_text quiet rules b, ?_⟩
        have hBoth : (run (a ++ b)).output.err = _ := check_err_text quiet rules (a ++ b)
        have hFront : (run a).output.err = _ := check_err_text quiet rules a
        rw [hBoth, hFront, refusals_append hClosed hText, List.flatMap_append, List.flatMap_map]
        rfl
    | json =>
        exact ⟨check_err_json quiet rules a, check_err_json quiet rules b,
          check_err_json quiet rules (a ++ b)⟩
  · intro hb
    refine ⟨_, _, check_ending_of_isText hText, check_ending_of_isText hb, ?_⟩
    rw [← exitCode_append hClosed hText b]
    exact check_ending_of_isText (hText.append hClosed hb)
  · intro hb
    rcases Lines.exists_unreadable hb with
      ⟨front, back, line, rest, rfl, hFront, hFrontText, hBack, hLine⟩
    -- The lines before the one that cannot be read are complete lines of the whole.
    have hBoth : Lines.IsClosed (a ++ front) := hClosed.append hFront
    have hBothText : Lines.IsText (a ++ front) := hText.append hClosed hFrontText
    refine ⟨front, back, line, rest, rfl, hFront, hFrontText, hBack, hLine,
      check_ending_of_unreadable hFront hFrontText hBack hLine, ?_, ?_⟩
    · have hEnding : (run (a ++ front ++ back)).ending = _ :=
        check_ending_of_unreadable hBoth hBothText hBack hLine
      rw [← List.append_assoc, hEnding, List.count_append, Nat.add_comm (a.count _),
        Nat.add_right_comm]
      rfl
    · have hWritten : written quiet rules (a ++ front ++ back) = written quiet rules (a ++ front) :=
        written_of_unreadable hBoth hBothText hBack hLine
      have hWhole : (run (a ++ front ++ back)).output = _ := check_output quiet rules format _
      rw [← List.append_assoc, hWhole, hWritten]
      exact (check_output quiet rules format _).symm
  · intro input hInput
    exact ⟨_, Report.exitCode_le_one _, check_ending_of_isText hInput, exitCode_eq_one_iff⟩

/-- An accepted line and a blank one in front of a line without an equals sign, and then of an octet
that is no UTF-8. -/
theorem check_append_unreadable :
    let a : Octets := Utf8.encode "O=JP,L=K,C=DE\r\n\n".toList
    let b : Octets := Utf8.encode "O\n".toList
    let reason : Text := "malformed distinguished name: RDN \"O\" has no '=' separator\n".toList
    let run := check false .standard .text
    Lines.IsClosed a ∧ Lines.IsText a ∧ Lines.IsText b ∧ ¬ Lines.IsText (b ++ [0xFF]) ∧
      (run (a ++ b)).output.out = (run a).output.out ++ (run b).output.out ∧
      (run b).output.err = "error\tline 1\tO\t".toList ++ reason ∧
      (run (a ++ b)).output.err = "error\tline 3\tO\t".toList ++ reason ∧
      (run (a ++ b)).ending = .finished 1 ∧
      (run (b ++ [0xFF])).ending = .unreadable 2 ∧
      (run (a ++ (b ++ [0xFF]))).ending.message =
        some ("failed to read input line ".toList ++ Text.decimal 4) := by
  intro a b reason run
  have hClosed : Lines.IsClosed a := by decide +kernel
  have hText : Lines.IsText a := by decide +kernel
  have hb : Lines.IsText b := by decide +kernel
  have hNoText : ¬ Lines.IsText (b ++ [0xFF]) := by decide +kernel
  rcases check_append false .standard .text b hClosed hText with ⟨hOut, hErr, hCode, -⟩
  rcases check_append false .standard .text (b ++ [0xFF]) hClosed hText with ⟨-, -, -, hStop, -⟩
  have hRun : check false .standard .text = run := rfl
  rw [hRun] at hOut
  rcases hErr with ⟨hOne, hThree⟩
  rcases hCode hb with ⟨c, d, hc, hd, hBoth⟩
  have hAccepted : (run a).ending = .finished 0 := by decide +kernel
  have hRejected : (run b).ending = .finished 1 := by decide +kernel
  rcases Ending.finished.inj (hc.symm.trans hAccepted) with rfl
  rcases Ending.finished.inj (hd.symm.trans hRejected) with rfl
  rcases hStop hNoText with ⟨front, back, line, rest, -, -, -, -, -, hNumber, hMessage, -⟩
  have hSecond : (run (b ++ [0xFF])).ending = .unreadable 2 := by decide +kernel
  have hFront : front.count Lines.newline + 1 = 2 :=
    Ending.unreadable.inj (hNumber.symm.trans hSecond)
  have hCount : a.count Lines.newline = 2 := by decide +kernel
  refine ⟨hClosed, hText, hb, hNoText, hOut, ?_, ?_, ?_, hSecond, ?_⟩
  · rw [hOne]
    decide +kernel
  · rw [hThree]
    decide +kernel
  · rw [hBoth]
    decide
  · rw [hMessage, hFront, hCount]

end Command
end MemberNames
