import MemberNames.Proofs.Command.JsonLines

/-!
# Runs compared

A quiet check ends as one that is not quiet and hides nothing but acceptances. Names lead to the
same reports whether they are arguments to be normalized or lines to be checked.

* `Command.check_out_quiet`, `Command.check_err_quiet`: what a quiet check leaves of text
* `Command.lineReports_true`, `Command.filter_hasError`: what it leaves of JSON
* `Command.check_quiet`: a check with and without `quiet`
* `Command.lineReports_join`: names as lines
* `Command.check_join`: checking lines and normalizing arguments
-/

namespace MemberNames
namespace Command

/-! ## Quiet checks in text form -/

theorem out_print_of_rejected {r : LineReport} (h : r.report.isAccepted = false) :
    (r.print .text).out = [] := by
  rw [LineReport.print, Report.print, h]
  rfl

theorem check_out_quiet (rules : Rules) (input : Octets) :
    (check true rules .text input).output.out = [] := by
  rw [check_out, List.flatMap_eq_nil_iff]
  intro r hr
  -- A quiet check has kept the report, so that it is on a rejected line.
  have hKept : (!(true && r.report.isAccepted)) = true := (List.mem_filter.1 hr).2
  rw [Bool.true_and, Bool.not_eq_true'] at hKept
  exact out_print_of_rejected hKept

theorem check_err_quiet (rules : Rules) (input : Octets) :
    (check true rules .text input).output.err = (check false rules .text input).output.err := by
  rw [check_err_text, check_err_text]

/-! ## Quiet checks in JSON -/

theorem lineReports_true (rules : Rules) (input : Octets) :
    lineReports true rules input =
      (lineReports false rules input).filter fun r => !r.isAccepted := by
  simp [lineReports]

/-- The lines with a reason are those of the rejected inputs. -/
theorem filter_hasError (rs : List Report) :
    (rs.map fun r => r.toJson.render).filter (fun line => decide (Report.HasError line)) =
      (rs.filter fun r => !r.isAccepted).map fun r => r.toJson.render := by
  have hLine : ∀ r : Report, decide (Report.HasError r.toJson.render) = !r.isAccepted := by
    intro r
    have hError := (Report.tells_render r).hasError_iff
    cases hAccepted : r.isAccepted with
    | true => exact decide_eq_false (by rw [hError, hAccepted]; decide)
    | false => exact decide_eq_true (hError.2 hAccepted)
  rw [List.filter_map]
  exact congrArg _ (List.filter_congr fun r _ => hLine r)

theorem check_output_lines (quiet : Bool) (rules : Rules) (input : Octets) :
    (check quiet rules .json input).output =
      ⟨((lineReports quiet rules input).map fun r => r.toJson.render).flatMap (· ++ ['\n']),
        []⟩ := by
  rw [check_output_json, Report.concat_map_print_json]

/-- A quiet check ends with the code, or at the line that cannot be read, as one that is not quiet.
In text form it writes nothing to `out` and the same to `err`. In JSON the check that is not quiet
writes one line for each report, and the quiet one those of these lines that hold a reason for a
rejection; neither writes to `err`. -/
theorem check_quiet (rules : Rules) (input : Octets) :
    (∀ format, (check true rules format input).ending = (check false rules format input).ending) ∧
    (check true rules .text input).output.out = [] ∧
    (check true rules .text input).output.err = (check false rules .text input).output.err ∧
    (check true rules .json input).output.err = [] ∧
    (check false rules .json input).output.err = [] ∧
    ∃ lines, List.Forall₂ Report.Tells lines (lineReports false rules input) ∧
      (∀ line ∈ lines, '\n' ∉ line) ∧
      (check false rules .json input).output.out = lines.flatMap (· ++ ['\n']) ∧
      (check true rules .json input).output.out =
        (lines.filter fun line => decide (Report.HasError line)).flatMap (· ++ ['\n']) := by
  refine ⟨?_, check_out_quiet rules input, check_err_quiet rules input, ?_, ?_, ?_⟩
  · intro format
    rw [check_ending, check_ending]
  · rw [check_output_lines]
  · rw [check_output_lines]
  · refine ⟨(lineReports false rules input).map fun r => r.toJson.render, ?_, ?_, ?_, ?_⟩
    · rw [List.forall₂_map_left_iff, List.forall₂_same]
      exact fun r _ => Report.tells_render r
    · intro line hLine
      rcases List.mem_map.1 hLine with ⟨r, -, rfl⟩
      exact Json.newline_not_mem_render r.fields
    · rw [check_output_lines]
    · rw [check_output_lines, lineReports_true, filter_hasError]

/-! ## Names as lines -/

/-- Names that are lines of their own get the reports that they get as arguments. -/
theorem lineReports_join (rules : Rules) {names : List Text}
    (hNewline : ∀ name ∈ names, '\n' ∉ name)
    (hReturn : ∀ name ∈ names, name.getLast? ≠ some '\r')
    (hBlank : ∀ name ∈ names, Text.isBlank name = false) :
    lineReports false rules (Lines.join names) =
      names.map fun name => Report.ofResult name (Name.parseWith name rules) :=
  calc
    lineReports false rules (Lines.join names)
      = (Lines.entries (Lines.join names)).map fun entry =>
          Report.ofResult entry.1 (Name.parseWith entry.1 rules) := by
        rw [lineReports]
        exact List.filter_eq_self.2 fun _ _ => rfl
    _ = ((Lines.entries (Lines.join names)).map Prod.fst).map fun name =>
          Report.ofResult name (Name.parseWith name rules) := by
        rw [List.map_map]
        rfl
    _ = names.map fun name => Report.ofResult name (Name.parseWith name rules) := by
        rw [Lines.map_fst_entries_join hNewline hReturn hBlank]

/-- In JSON, names lead to the same output and the same exit code whether they are checked as lines
or normalized as arguments. A newline in a name would cut it in two, a carriage return at its end
would be lost, and a blank name would be skipped. -/
theorem check_join (rules : Rules) {names : List Text} (hNewline : ∀ name ∈ names, '\n' ∉ name)
    (hReturn : ∀ name ∈ names, name.getLast? ≠ some '\r')
    (hBlank : ∀ name ∈ names, Text.isBlank name = false) :
    let batch := check false rules .json (Lines.join names)
    let outcome := normalize names rules .json
    batch.output.out = outcome.output.out ∧ batch.output.err = [] ∧ outcome.output.err = [] ∧
      batch.ending = .finished outcome.code := by
  intro batch outcome
  have hReports := lineReports_join rules hNewline hReturn hBlank
  have hBatch : batch.output = _ := check_output_lines false rules (Lines.join names)
  have hOutcome : outcome.output = _ := Report.concat_map_print_json normalizeText _
  refine ⟨?_, ?_, ?_, ?_⟩
  · rw [hBatch, hOutcome, hReports]
  · rw [hBatch]
  · rw [hOutcome]
  · have hText := Lines.isText_join hNewline hReturn
    have hEnding : batch.ending = _ := check_ending_of_isText hText
    rw [hEnding, exitCode_eq false, hReports]
    rfl

/-- A name that is accepted, and one that is not and holds a carriage return and letters of more
than one octet. -/
theorem check_join_rejected :
    let names : List Text := ["O=JP,L=K,C=DE".toList, " é\r字".toList]
    let batch := check false .standard .json (Lines.join names)
    let outcome := normalize names .standard .json
    (∀ name ∈ names, '\n' ∉ name) ∧ (∀ name ∈ names, name.getLast? ≠ some '\r') ∧
      (∀ name ∈ names, Text.isBlank name = false) ∧
      batch.output.out = outcome.output.out ∧ batch.ending = .finished 1 := by
  intro names
  have hNewline : ∀ name ∈ names, '\n' ∉ name := by decide +kernel
  have hReturn : ∀ name ∈ names, name.getLast? ≠ some '\r' := by decide +kernel
  have hBlank : ∀ name ∈ names, Text.isBlank name = false := by decide +kernel
  have hCode : (normalize names .standard .json).code = 1 := by decide +kernel
  rcases check_join .standard hNewline hReturn hBlank with ⟨hOut, -, -, hEnding⟩
  refine ⟨hNewline, hReturn, hBlank, hOut, ?_⟩
  rw [hEnding, hCode]

end Command
end MemberNames
