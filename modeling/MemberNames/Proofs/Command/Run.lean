import MemberNames.Command.Run
import MemberNames.Proofs.Command.Check
import MemberNames.Proofs.Rules.Loading

/-!
# Runs and their exit codes

The exit code of a run says whether all of its inputs are accepted. A run that is successful writes
nothing to `err`, and a configuration file does not change what it writes, because the rules of the
file accept at least what the standard rules accept.

* `Command.Accepts`: inputs that are all accepted
* `Command.exitCode_run_eq_zero_iff`, `Command.exitCode_run_eq_two_iff`: exit codes
* `Command.err_run_of_accepts`, `Command.err_run_json`: what is written to `err`
* `Command.run_of_isWithin`: runs under more liberal rules
* `Command.runConfigured_eq_ok_iff`, `Command.runConfigured_eq_error_iff`: configured runs
* `Command.runConfigured_of_exitCode_eq_zero`: runs that succeed without a configuration
-/

namespace MemberNames
namespace Command

variable {command : Arguments.Command} {rules rules' : Rules} {format : Format} {input : Octets}

/-! ## Reports of a run -/

/-- The reports on the inputs of a command, written or not. -/
def inputReports (rules : Rules) (input : Octets) : Arguments.Command → List Report
  | .normalize names => names.map fun name => Report.ofResult name (Name.parseWith name rules)
  | .check _ => (reports rules input).map LineReport.report
  | .encode name => [encodeReport name rules]
  | .decode hex => [decodeReport hex rules]

/-- Whether a command can read its input to the end. -/
def IsReadable (input : Octets) : Arguments.Command → Prop
  | .check _ => Lines.IsText input
  | .normalize _ | .encode _ | .decode _ => True

/-- Whether a command can read its inputs and accepts them all. -/
def Accepts (rules : Rules) (input : Octets) : Arguments.Command → Prop
  | .normalize names => ∀ name ∈ names, ∃ n, Name.parseWith name rules = .ok n
  | .check _ =>
    Lines.IsText input ∧
      ∀ entry ∈ Lines.entries input, ∃ n, Name.parseWith entry.1 rules = .ok n
  | .encode name => ∃ n octets, Name.parseWith name rules = .ok n ∧ n.toDer = .ok octets
  | .decode hex => ∃ octets n, Hex.read hex = .ok octets ∧ Name.fromDerWith octets rules = .ok n

theorem isAccepted_encodeReport {name : Text} :
    (encodeReport name rules).isAccepted ↔
      ∃ n octets, Name.parseWith name rules = .ok n ∧ n.toDer = .ok octets := by
  rw [encodeReport]
  cases Name.parseWith name rules with
  | error e => simp [Report.isAccepted]
  | ok n =>
      simp only [Except.ok.injEq]
      cases hDer : n.toDer with
      | error e => simp [Report.isAccepted, hDer]
      | ok octets => simp [Report.isAccepted, hDer]

theorem isAccepted_decodeReport {hex : Text} :
    (decodeReport hex rules).isAccepted ↔
      ∃ octets n, Hex.read hex = .ok octets ∧ Name.fromDerWith octets rules = .ok n := by
  rw [decodeReport]
  cases Hex.read hex with
  | error e => simp [Report.isAccepted]
  | ok octets => simp [Report.isAccepted_ofResult_iff]

theorem accepts_iff :
    Accepts rules input command ↔
      IsReadable input command ∧ ∀ r ∈ inputReports rules input command, r.isAccepted := by
  cases command with
  | normalize names =>
      simp only [Accepts, IsReadable, inputReports, List.forall_mem_map,
        Report.isAccepted_ofResult_iff, true_and]
  | check quiet =>
      simp only [Accepts, IsReadable, inputReports, reports, lineReport, List.forall_mem_map,
        Report.isAccepted_ofResult_iff]
  | encode name =>
      simp only [Accepts, IsReadable, inputReports, List.forall_mem_singleton,
        isAccepted_encodeReport, true_and]
  | decode hex =>
      simp only [Accepts, IsReadable, inputReports, List.forall_mem_singleton,
        isAccepted_decodeReport, true_and]

/-! ## Exit codes -/

theorem exitCode_run_of_isReadable (h : IsReadable input command) :
    (run command rules format input).exitCode =
      Report.exitCode (inputReports rules input command) := by
  cases command with
  | check quiet =>
      have hEnding : (run (.check quiet) rules format input).ending =
          .finished (exitCode rules input) := check_ending_of_isText h
      rw [Batch.exitCode, hEnding]
      rfl
  | normalize names => rfl
  | encode name => rfl
  | decode hex => rfl

theorem exitCode_run_of_not_isReadable (h : ¬ IsReadable input command) :
    (run command rules format input).exitCode = 2 := by
  cases command with
  | check quiet =>
      rcases Lines.exists_unreadable h with
        ⟨front, back, line, rest, rfl, hClosed, hText, hBack, hLine⟩
      have hEnding : (run (.check quiet) rules format (front ++ back)).ending = .unreadable _ :=
        check_ending_of_unreadable hClosed hText hBack hLine
      rw [Batch.exitCode, hEnding]
      rfl
  | normalize names => exact absurd trivial h
  | encode name => exact absurd trivial h
  | decode hex => exact absurd trivial h

theorem exitCode_run_eq_zero_iff :
    (run command rules format input).exitCode = 0 ↔ Accepts rules input command := by
  rw [accepts_iff]
  by_cases hReadable : IsReadable input command
  · rw [exitCode_run_of_isReadable hReadable, Report.exitCode_eq_zero_iff]
    exact (and_iff_right hReadable).symm
  · rw [exitCode_run_of_not_isReadable hReadable]
    exact iff_of_false (by decide) fun h => hReadable h.1

/-- Only a check can end before its input does. -/
theorem exitCode_run_eq_two_iff :
    (run command rules format input).exitCode = 2 ↔
      ∃ quiet, command = .check quiet ∧ ¬ Lines.IsText input := by
  have hCheck : ¬ IsReadable input command ↔
      ∃ quiet, command = .check quiet ∧ ¬ Lines.IsText input := by
    cases command <;> simp [IsReadable]
  rw [← hCheck]
  constructor
  · intro h hReadable
    have hCode := Report.exitCode_le_one (inputReports rules input command)
    rw [← exitCode_run_of_isReadable hReadable, h] at hCode
    exact absurd hCode (by decide)
  · exact exitCode_run_of_not_isReadable

theorem exitCode_run_le (command : Arguments.Command) (rules : Rules) (format : Format)
    (input : Octets) : (run command rules format input).exitCode ≤ 2 := by
  by_cases hReadable : IsReadable input command
  · rw [exitCode_run_of_isReadable hReadable]
    exact (Report.exitCode_le_one _).trans (by decide)
  · rw [exitCode_run_of_not_isReadable hReadable]

/-! ## What is written to `err` -/

theorem err_print_of_isAccepted {text : Report → Text} {r : Report} (h : r.isAccepted) :
    (r.print format text).err = [] := by
  cases format with
  | text => rw [Report.print, if_pos h]
  | json => rfl

theorem err_concat_eq_nil {print : Report → Output} {rs : List Report}
    (h : ∀ r ∈ rs, (print r).err = []) : (Output.concat (rs.map print)).err = [] := by
  simp only [Output.concat, List.flatMap_map, List.flatMap_eq_nil_iff]
  exact h

/-- A successful run has nothing to say but its reports on names. -/
theorem err_run_of_accepts (h : Accepts rules input command) :
    (run command rules format input).output.err = [] ∧
      (run command rules format input).ending.message = none := by
  rcases accepts_iff.1 h with ⟨hReadable, hReports⟩
  have hSilent : ∀ text, ∀ r ∈ inputReports rules input command,
      (r.print format text).err = [] := fun _ r hr => err_print_of_isAccepted (hReports r hr)
  cases command with
  | normalize names => exact ⟨err_concat_eq_nil (hSilent normalizeText), rfl⟩
  | check quiet =>
      have hErr : (run (.check quiet) rules format input).output.err = _ :=
        check_err quiet rules format input
      have hEnding : (run (.check quiet) rules format input).ending = _ :=
        check_ending_of_isText hReadable
      refine ⟨?_, congrArg Ending.message hEnding⟩
      rw [hErr, List.flatMap_eq_nil_iff]
      intro r hr
      exact hSilent _ r.report (List.mem_map_of_mem (List.mem_of_mem_filter hr))
  | encode name => exact ⟨err_concat_eq_nil (hSilent encodeText), rfl⟩
  | decode hex => exact ⟨err_concat_eq_nil (hSilent decodeText), rfl⟩

theorem err_run_json (command : Arguments.Command) (rules : Rules) (input : Octets) :
    (run command rules .json input).output.err = [] := by
  cases command with
  | normalize names => exact err_concat_eq_nil fun _ _ => rfl
  | check quiet => exact check_err_json quiet rules input
  | encode name => exact err_concat_eq_nil fun _ _ => rfl
  | decode hex => exact err_concat_eq_nil fun _ _ => rfl

/-! ## More liberal rules -/

/-- Rules matter to a check only through the names on the lines. -/
theorem check_congr (quiet : Bool) (format : Format)
    (h : ∀ entry ∈ Lines.entries input,
      Name.parseWith entry.1 rules = Name.parseWith entry.1 rules') :
    check quiet rules format input = check quiet rules' format input := by
  have hReports : reports rules input = reports rules' input := by
    refine List.map_congr_left ?_
    intro entry hEntry
    rw [lineReport, h entry hEntry, lineReport]
  have hLines : checkLines rules 1 (Lines.split input) =
      checkLines rules' 1 (Lines.split input) := by
    rw [checkLines_eq, checkLines_eq]
    exact congrArg (·, _) hReports
  rw [check, check, hLines]

/-- What is accepted is the same name under rules that accept more, and makes the same report. -/
theorem run_of_isWithin (hRules : rules.IsWithin rules') (h : Accepts rules input command) :
    run command rules' format input = run command rules format input := by
  have hText : ∀ {s : Text} {n : Name}, Name.parseWith s rules = .ok n →
      Name.parseWith s rules' = Name.parseWith s rules := by
    intro s n hName
    have hLiberal : (Name.Source.text s).read rules' = .ok n :=
      Name.Source.read_of_isWithin hRules hName
    exact Eq.trans hLiberal hName.symm
  cases command with
  | normalize names =>
      have hReports : (names.map fun name => Report.ofResult name (Name.parseWith name rules')) =
          names.map fun name => Report.ofResult name (Name.parseWith name rules) := by
        refine List.map_congr_left ?_
        intro name hName
        rcases h name hName with ⟨n, hParse⟩
        rw [hText hParse]
      rw [run, normalize, hReports]
      rfl
  | check quiet =>
      refine check_congr quiet format ?_
      intro entry hEntry
      rcases h.2 entry hEntry with ⟨n, hParse⟩
      exact hText hParse
  | encode name =>
      rcases h with ⟨n, octets, hParse, -⟩
      rw [run, encode, encodeReport, hText hParse]
      rfl
  | decode hex =>
      rcases h with ⟨octets, n, hHex, hName⟩
      have hLiberal : (Name.Source.principal octets).read rules' = .ok n :=
        Name.Source.read_of_isWithin hRules hName
      have hSame : Name.fromDerWith octets rules' = Name.fromDerWith octets rules :=
        Eq.trans hLiberal hName.symm
      rw [run, run, decode, decode, decodeReport, decodeReport, hHex]
      simp only [hSame]

/-! ## Configured runs -/

variable {invocation : Arguments.Invocation} {content : Option (Option Octets)} {batch : Batch}

theorem runConfigured_some (invocation : Arguments.Invocation) (file : Option Octets)
    (input : Octets) :
    runConfigured invocation (some file) input =
      (Rules.load file).map fun rules =>
        run invocation.command rules (Command.format invocation) input := by
  simp only [runConfigured]
  cases Rules.load file with
  | error e => rfl
  | ok rules => rfl

theorem runConfigured_eq_ok_iff :
    runConfigured invocation content input = .ok batch ↔
      ∃ rules, (content = none ∧ rules = .standard ∨
          ∃ file, content = some file ∧ Rules.load file = .ok rules) ∧
        run invocation.command rules (Command.format invocation) input = batch := by
  cases content with
  | none =>
      constructor
      · intro h
        exact ⟨.standard, .inl ⟨rfl, rfl⟩, Except.ok.inj h⟩
      · rintro ⟨rules, ⟨-, rfl⟩ | ⟨file, hFile, -⟩, rfl⟩
        · rfl
        · cases hFile
  | some file =>
      rw [runConfigured_some, Result.map_eq_ok_iff]
      constructor
      · rintro ⟨rules, hLoad, hRun⟩
        exact ⟨rules, .inr ⟨file, rfl, hLoad⟩, hRun⟩
      · rintro ⟨rules, ⟨hFile, -⟩ | ⟨file', hFile, hLoad⟩, hRun⟩
        · cases hFile
        · cases hFile
          exact ⟨rules, hLoad, hRun⟩

/-- Nothing is run without rules. -/
theorem runConfigured_eq_error_iff {e : ConfigError} :
    runConfigured invocation content input = .error e ↔
      ∃ file, content = some file ∧ Rules.load file = .error e := by
  cases content with
  | none => exact iff_of_false nofun nofun
  | some file =>
      rw [runConfigured_some, Result.map_eq_error_iff]
      simp only [Option.some.injEq, exists_eq_left']

/-- A run has rules that a deployment can have, and these accept what the standard ones accept. -/
theorem exists_rules_of_runConfigured (h : runConfigured invocation content input = .ok batch) :
    ∃ rules : Rules, rules.IsDeployable ∧ Rules.standard.IsWithin rules ∧
      run invocation.command rules (Command.format invocation) input = batch := by
  rcases runConfigured_eq_ok_iff.1 h with ⟨rules, ⟨-, rfl⟩ | ⟨file, -, hLoad⟩, rfl⟩
  · exact ⟨.standard, .inl rfl, ⟨fun _ => id, fun _ => id⟩, rfl⟩
  · exact ⟨rules, Rules.isDeployable_of_load hLoad, Rules.isWithin_of_load hLoad, rfl⟩

/-- A configuration never changes what a command does that succeeds without it. -/
theorem runConfigured_of_exitCode_eq_zero
    (h : runConfigured invocation content input = .ok batch)
    (hSuccess : (run invocation.command .standard (Command.format invocation) input).exitCode = 0) :
    batch = run invocation.command .standard (Command.format invocation) input := by
  rcases exists_rules_of_runConfigured h with ⟨rules, -, hWithin, rfl⟩
  exact run_of_isWithin hWithin (exitCode_run_eq_zero_iff.1 hSuccess)

end Command
end MemberNames
