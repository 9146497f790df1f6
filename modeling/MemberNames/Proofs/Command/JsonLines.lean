import MemberNames.Proofs.Command.Check

/-!
# Commands that write JSON

In JSON every command writes one line for each of its inputs and nothing to `err`. Reading a line
as an object gives the input back, and all that the command has found out about it. The exit code
can be told from the lines, even from those that a quiet check leaves.

* `Command.TellsAll`: lines that tell reports, and the exit code with them
* `Command.tellsAll_outcome`, `Command.tellsAll_check`: what commands write
* `Command.lineReports_eq_filterMap`: the reports of a check
* `Command.tellsAll_json`: all commands
-/

namespace MemberNames
namespace Command

/-- Lines that tell reports, one each and in order, and an exit code that tells whether there is a
line with a reason for a rejection. -/
structure TellsAll (o : Output) (code : Nat) (rs : List Report) : Prop where
  lines : Report.IsJsonLines o rs
  code_le_one : code ≤ 1
  code_eq_one_iff : code = 1 ↔ ∃ line ∈ Text.splitOn '\n' o.out, Report.HasError line

theorem tellsAll_exitCode {o : Output} {rs : List Report} (h : Report.IsJsonLines o rs) :
    TellsAll o (Report.exitCode rs) rs :=
  ⟨h, Report.exitCode_le_one rs, h.exists_hasError_iff.symm⟩

theorem tellsAll_outcome (text : Report → Text) (rs : List Report) :
    TellsAll (outcome .json text rs).output (outcome .json text rs).code rs :=
  tellsAll_exitCode (Report.isJsonLines_concat rs)

/-! ## Checking -/

/-- The reports on the lines of an input, without their numbers. -/
def lineReports (quiet : Bool) (rules : Rules) (input : Octets) : List Report :=
  ((Lines.entries input).map fun (s, _) => Report.ofResult s (Name.parseWith s rules)).filter
    fun r => !(quiet && r.isAccepted)

theorem map_report_written (quiet : Bool) (rules : Rules) (input : Octets) :
    (written quiet rules input).map LineReport.report = lineReports quiet rules input := by
  rw [written, reports, List.filter_map, lineReports, List.filter_map, List.map_map]
  rfl

/-- In JSON the number of a line is not written. -/
theorem check_output_json (quiet : Bool) (rules : Rules) (input : Octets) :
    (check quiet rules .json input).output =
      .concat ((lineReports quiet rules input).map (Report.print .json fun _ => [])) := by
  rw [check_output, ← map_report_written, List.map_map]
  rfl

theorem isJsonLines_check (quiet : Bool) (rules : Rules) (input : Octets) :
    Report.IsJsonLines (check quiet rules .json input).output (lineReports quiet rules input) := by
  rw [check_output_json]
  exact Report.isJsonLines_concat _

theorem exitCode_eq (quiet : Bool) (rules : Rules) (input : Octets) :
    exitCode rules input = Report.exitCode (lineReports quiet rules input) := by
  rw [exitCode, reports, List.map_map, lineReports, Report.exitCode_filter]
  rfl

theorem tellsAll_check {quiet : Bool} {rules : Rules} {input : Octets} {code : Nat}
    (h : (check quiet rules .json input).ending = .finished code) :
    TellsAll (check quiet rules .json input).output code (lineReports quiet rules input) := by
  rw [check_ending] at h
  split at h
  · rw [← Ending.finished.inj h, exitCode_eq quiet]
    exact tellsAll_exitCode (isJsonLines_check quiet rules input)
  · cases h

/-! ## All commands -/

/-- What is found out about the lines that count; with `quiet`, names do not count. -/
theorem lineReports_eq_filterMap (quiet : Bool) (rules : Rules) (input : Octets) :
    lineReports quiet rules input =
      (Lines.entries input).filterMap fun entry =>
        match Name.parseWith entry.1 rules with
        | .ok n => if quiet then none else some ⟨entry.1, .accepted n none⟩
        | .error e => some ⟨entry.1, .rejected e.message⟩ := by
  rw [lineReports, ← List.filterMap_eq_filter, List.filterMap_map]
  refine List.filterMap_congr ?_
  rintro ⟨s, number⟩ _
  simp only [Function.comp_apply]
  cases Name.parseWith s rules with
  | ok n => cases quiet <;> rfl
  | error e => cases quiet <;> rfl

/-- In JSON each command writes one line for each of its inputs. The line tells the input, and then
the name with its canonical text and its fields, or the message of the error; of a name that is
encoded it also tells the octets in hex. A quiet check leaves out the lines of names. The exit code
tells whether a line has an error. A check stops at a line that is not UTF-8 and has then written
the lines before it. -/
theorem tellsAll_json (rules : Rules) :
    (∀ names,
      let o := normalize names rules .json
      TellsAll o.output o.code (names.map fun name =>
        match Name.parseWith name rules with
        | .ok n => ⟨name, .accepted n none⟩
        | .error e => ⟨name, .rejected e.message⟩)) ∧
    (∀ name,
      let o := encode name rules .json
      TellsAll o.output o.code [
        match Name.parseWith name rules with
        | .ok n =>
          match n.toDer with
          | .ok octets => ⟨name, .accepted n (some (Hex.encode octets))⟩
          | .error e => ⟨name, .rejected e.message⟩
        | .error e => ⟨name, .rejected e.message⟩]) ∧
    (∀ hex,
      let o := decode hex rules .json
      TellsAll o.output o.code [
        match Hex.read hex with
        | .ok octets =>
          match Name.fromDerWith octets rules with
          | .ok n => ⟨hex, .accepted n none⟩
          | .error e => ⟨hex, .rejected e.message⟩
        | .error e => ⟨hex, .rejected e.message⟩]) ∧
    ∀ quiet input,
      let batch := check quiet rules .json input
      let told := (Lines.entries input).filterMap fun entry =>
        match Name.parseWith entry.1 rules with
        | .ok n => if quiet then none else some ⟨entry.1, .accepted n none⟩
        | .error e => some ⟨entry.1, .rejected e.message⟩
      match batch.ending with
      | .finished code => Lines.IsText input ∧ TellsAll batch.output code told
      | .unreadable _ => ¬ Lines.IsText input ∧ Report.IsJsonLines batch.output told := by
  refine ⟨?_, ?_, ?_, ?_⟩
  · intro names
    exact tellsAll_outcome normalizeText _
  · intro name
    simp only [encode, encodeReport]
    cases Name.parseWith name rules with
    | error e => exact tellsAll_outcome encodeText _
    | ok n =>
        simp only
        cases n.toDer with
        | error e => exact tellsAll_outcome encodeText _
        | ok octets => exact tellsAll_outcome encodeText _
  · intro hex
    simp only [decode, decodeReport]
    cases Hex.read hex with
    | error e => exact tellsAll_outcome decodeText _
    | ok octets =>
        simp only
        cases Name.fromDerWith octets rules with
        | error e => exact tellsAll_outcome decodeText _
        | ok n => exact tellsAll_outcome decodeText _
  · intro quiet input batch told
    have hTold : lineReports quiet rules input = told :=
      lineReports_eq_filterMap quiet rules input
    by_cases hText : Lines.IsText input
    · have hEnding : batch.ending = .finished (exitCode rules input) :=
        check_ending_of_isText hText
      rw [hEnding, ← hTold]
      exact ⟨hText, tellsAll_check hEnding⟩
    · rcases Lines.exists_unreadable hText with
        ⟨front, back, line, rest, rfl, hClosed, hFront, hBack, hLine⟩
      have hEnding : batch.ending = .unreadable _ :=
        check_ending_of_unreadable hClosed hFront hBack hLine
      rw [hEnding, ← hTold]
      exact ⟨hText, isJsonLines_check quiet rules _⟩

end Command
end MemberNames
