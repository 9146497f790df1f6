import MemberNames.Command.Arguments
import MemberNames.Proofs.Result
import MemberNames.Proofs.Text.Basic

/-!
# Spelling an invocation

Options can be spelled in front of the command, behind it, or at both places, where those behind it
have precedence. Behind two hyphens every value is taken as it is, so that each command with each of
its values has a spelling, and each configuration file whose path is not empty. Nothing else can be
asked for: no step of the reader gives an empty path, and none of its errors asks for a run.

* `Arguments.Options.arguments`, `Arguments.Command.arguments`: spellings of options and commands
* `Arguments.AddsAll`: options that are read one after the other
* `Arguments.readFront_append`, `Arguments.readCommand_append`: options in front of other arguments
* `Arguments.parse_arguments`: spelled invocations are read back
* `Arguments.IsPossible`, `Arguments.IsRunnable`: what is read, step by step and in the end
* `Arguments.exists_parse_eq_run_iff`: the invocations that have a spelling
-/

namespace MemberNames
namespace Arguments

/-! ## Spellings -/

/-- The options that every command shares. -/
structure Options where
  config : Option Text
  json : Bool
  verbosity : Nat

namespace Options

def arguments (o : Options) : List Text :=
  (o.config.map fun path => "--config=".toList ++ path).toList ++
    ((if o.json then ["--json".toList] else []) ++ List.replicate o.verbosity "-v".toList)

/-- What has been read behind the options. -/
def seen (o : Options) : Seen :=
  ⟨o.config, o.json, false, o.verbosity, []⟩

end Options

namespace Command

def place : Command → Place
  | .normalize _ => .normalize
  | .check _ => .check
  | .encode _ => .encode
  | .decode _ => .decode

def word : Command → Text
  | .normalize _ => "normalize".toList
  | .check _ => "check".toList
  | .encode _ => "encode".toList
  | .decode _ => "decode".toList

/-- The option of the command, or its values behind two hyphens. -/
def arguments : Command → List Text
  | .normalize names => "--".toList :: names
  | .check quiet => if quiet then ["-q".toList] else []
  | .encode name => ["--".toList, name]
  | .decode hex => ["--".toList, hex]

/-- What has been read behind the options and these arguments. -/
def seen (o : Options) : Command → Seen
  | .normalize names => { o.seen with values := names }
  | .check quiet => { o.seen with quiet := quiet }
  | .encode name => { o.seen with values := [name] }
  | .decode hex => { o.seen with values := [hex] }

end Command

/-- The command with its options, those behind it first. -/
def invocation (front behind : Options) (command : Command) : Invocation where
  config := behind.config <|> front.config
  json := behind.json || front.json
  verbosity := if behind.verbosity = 0 then front.verbosity else behind.verbosity
  command

/-! ## Reading options -/

/-- An argument that is complete as an option, and what has been read behind it. -/
inductive Adds (place : Place) (seen : Seen) (arg : Text) (seen' : Seen) : Prop where
  | letters {s : Text} :
      Argument.ofText arg = .letters s → seen.addLetters place s = .ok seen' →
        Adds place seen arg seen'
  | long {name : Text} {value : Option Text} :
      Argument.ofText arg = .long name value →
        (decide (name = configName) && value.isNone) = false →
          addOption place seen name value = .ok seen' → Adds place seen arg seen'

/-- Options one after the other. -/
inductive AddsAll (place : Place) : Seen → List Text → Seen → Prop where
  | nil {seen : Seen} : AddsAll place seen [] seen
  | cons {seen seen' seen'' : Seen} {arg : Text} {args : List Text} :
      Adds place seen arg seen' → AddsAll place seen' args seen'' →
        AddsAll place seen (arg :: args) seen''

variable {place : Place} {seen seen' seen'' : Seen} {args args' : List Text}

theorem AddsAll.append (h : AddsAll place seen args seen') (h' : AddsAll place seen' args' seen'') :
    AddsAll place seen (args ++ args') seen'' := by
  induction h with
  | nil =>
      exact h'
  | cons hArg _ ih =>
      exact .cons hArg (ih h')

theorem readFront_append (h : AddsAll .front seen args seen') (rest : List Text) :
    readFront seen (args ++ rest) = readFront seen' rest := by
  induction h with
  | nil =>
      rfl
  | cons hArg _ ih =>
      rw [← ih, List.cons_append, readFront.eq_def]
      cases hArg with
      | letters hText hAdd => simp only [hText, hAdd]
      | long hText hValue hAdd =>
          simp only [hText, hValue, hAdd, Bool.false_eq_true, if_false]

theorem readCommand_append (h : AddsAll place seen args seen') (rest : List Text) :
    readCommand place seen (args ++ rest) = readCommand place seen' rest := by
  induction h with
  | nil =>
      rfl
  | cons hArg _ ih =>
      rw [← ih, List.cons_append, readCommand.eq_def]
      cases hArg with
      | letters hText hAdd => simp only [hText, hAdd, Result.ok_bind]
      | long hText hValue hAdd =>
          simp only [hText, hValue, hAdd, Bool.false_eq_true, if_false, Result.ok_bind]

/-! ## Options -/

theorem adds_config {path : Text} (hSeen : seen.config = none) (hPath : path ≠ []) :
    Adds place seen ("--config=".toList ++ path) { seen with config := some path } := by
  have hText : Argument.ofText ("--config=".toList ++ path) = .long configName (some path) := by
    have hSplit : Text.splitFirst '=' ('c' :: ("onfig=".toList ++ path)) =
        some (configName, path) :=
      Text.splitFirst_eq_some_iff.2 ⟨rfl, by decide⟩
    have hChars : "--config=".toList ++ path = '-' :: '-' :: 'c' :: ("onfig=".toList ++ path) := rfl
    rw [hChars, Argument.ofText, hSplit]
    simp
  refine .long hText (by simp) ?_
  rw [addOption, if_pos rfl, Seen.addConfig, if_neg]
  simp [hSeen, hPath]

theorem adds_json (hSeen : seen.json = false) :
    Adds place seen "--json".toList { seen with json := true } := by
  have hText : Argument.ofText "--json".toList = .long "json".toList none := rfl
  have hFlag : Flag.ofLongName? place "json".toList = some .json := by
    cases place <;> decide
  refine .long hText (by decide) ?_
  simp only [addOption, hFlag, Seen.addFlag, hSeen, Bool.false_eq_true, if_false]

theorem adds_verbose :
    Adds place seen "-v".toList { seen with verbosity := seen.verbosity + 1 } := by
  have hText : Argument.ofText "-v".toList = .letters ['v'] := rfl
  have hFlag : Flag.ofLetter? place 'v' = some .verbose := by
    cases place <;> decide
  refine .letters hText ?_
  simp only [Seen.addLetters, List.foldlM_cons, List.foldlM_nil, hFlag, Seen.addFlag]
  rfl

theorem addsAll_verbose (place : Place) (seen : Seen) (count : Nat) :
    AddsAll place seen (List.replicate count "-v".toList)
      { seen with verbosity := seen.verbosity + count } := by
  induction count generalizing seen with
  | zero =>
      exact .nil
  | succ count ih =>
      have hRest := ih { seen with verbosity := seen.verbosity + 1 }
      rw [Nat.add_right_comm] at hRest
      exact .cons adds_verbose hRest

/-- The options of a place are read as what they spell. -/
theorem addsAll_arguments (o : Options) (hPath : o.config ≠ some []) :
    AddsAll place .empty o.arguments o.seen := by
  rcases o with ⟨config, json, verbosity⟩
  have hConfig : AddsAll place .empty
      (config.map fun path => "--config=".toList ++ path).toList
      { Seen.empty with config := config } := by
    cases config with
    | none => exact .nil
    | some path =>
        refine .cons (adds_config rfl ?_) .nil
        rintro rfl
        exact hPath rfl
  have hJson : AddsAll place { Seen.empty with config := config }
      (if json then ["--json".toList] else [])
      { Seen.empty with config := config, json := json } := by
    cases json with
    | false => exact .nil
    | true => exact .cons (adds_json rfl) .nil
  have hVerbose : AddsAll place { Seen.empty with config := config, json := json }
      (List.replicate verbosity "-v".toList) (Options.seen ⟨config, json, verbosity⟩) := by
    have hCount : Seen.empty.verbosity + verbosity = verbosity := Nat.zero_add _
    have hRepeated :=
      addsAll_verbose place { Seen.empty with config := config, json := json } verbosity
    rw [hCount] at hRepeated
    exact hRepeated
  exact hConfig.append (hJson.append hVerbose)

/-! ## Commands -/

/-- Behind two hyphens all arguments are values. -/
theorem readCommand_terminator (values : List Text) :
    readCommand place seen ("--".toList :: values) = values.foldlM (Seen.addValue place) seen := by
  rw [readCommand.eq_def]
  rfl

theorem foldlM_addValue_normalize (names : List Text) :
    names.foldlM (Seen.addValue .normalize) seen =
      .ok { seen with values := seen.values ++ names } := by
  induction names generalizing seen with
  | nil =>
      rw [List.append_nil]
      rfl
  | cons name names ih =>
      have hAdd : Seen.addValue .normalize seen name =
          .ok { seen with values := seen.values ++ [name] } := rfl
      rw [List.foldlM_cons, hAdd, Result.ok_bind, ih, List.append_assoc]
      rfl

theorem adds_quiet (hSeen : seen.quiet = false) :
    Adds .check seen "-q".toList { seen with quiet := true } := by
  have hText : Argument.ofText "-q".toList = .letters ['q'] := rfl
  have hFlag : Flag.ofLetter? .check 'q' = some .quiet := by decide
  refine .letters hText ?_
  simp only [Seen.addLetters, List.foldlM_cons, List.foldlM_nil, hFlag, Seen.addFlag, hSeen]
  rfl

theorem readCommand_arguments (o : Options) (command : Command) :
    readCommand command.place o.seen command.arguments = .ok (command.seen o) := by
  cases command with
  | normalize names =>
      exact (readCommand_terminator names).trans (foldlM_addValue_normalize names)
  | check quiet =>
      cases quiet with
      | false => rfl
      | true => exact readCommand_append (.cons (adds_quiet rfl) .nil) []
  | encode name => exact readCommand_terminator [name]
  | decode hex => exact readCommand_terminator [hex]

theorem request_seen (front behind : Options) {command : Command}
    (hNames : command ≠ .normalize []) :
    Seen.request front.seen command.place (command.seen behind) =
      .run (invocation front behind command) := by
  cases command with
  | normalize names =>
      cases names with
      | nil => exact absurd rfl hNames
      | cons name names => rfl
  | check quiet => rfl
  | encode name => rfl
  | decode hex => rfl

/-! ## Invocations -/

/-- A command between options is read with those at either place, provided that no path is empty and
that there is a name to normalize. -/
theorem parse_arguments (front behind : Options) (command : Command)
    (hFront : front.config ≠ some []) (hBehind : behind.config ≠ some [])
    (hNames : command ≠ .normalize []) :
    parse (front.arguments ++ command.word :: (behind.arguments ++ command.arguments)) =
      .run (invocation front behind command) := by
  have hWord : Argument.ofText command.word = .value command.word ∧
      Place.ofName? command.word = some command.place := by
    cases command <;> exact ⟨rfl, rfl⟩
  have hCommand : readCommand command.place .empty (behind.arguments ++ command.arguments) =
      .ok (command.seen behind) := by
    rw [readCommand_append (addsAll_arguments behind hBehind), readCommand_arguments]
  rw [parse, readFront_append (addsAll_arguments front hFront), readFront.eq_def]
  simp only [hWord.1, hWord.2, hCommand]
  exact request_seen front behind hNames

-- The lone value stands behind two hyphens and may begin with one itself.
example :
    parse ["-v".toList, "--config=a.yaml".toList, "encode".toList, "--json".toList, "--".toList,
      "-O=A".toList] = .run ⟨some "a.yaml".toList, true, 1, .encode "-O=A".toList⟩ := by
  decide +kernel

/-! ## What can be asked for -/

/-- What has been read has no empty path, and an error is no request to run a command. -/
def IsPossible : Except Request Seen → Prop
  | .ok seen => seen.config ≠ some []
  | .error request => ∀ invocation, request ≠ .run invocation

theorem config_empty_ne : Seen.empty.config ≠ some [] :=
  nofun

theorem isPossible_usageError : IsPossible (.error .usageError) :=
  nofun

theorem IsPossible.bind {r : Except Request Seen} {f : Seen → Except Request Seen}
    (h : IsPossible r) (hf : ∀ seen, seen.config ≠ some [] → IsPossible (f seen)) :
    IsPossible (r >>= f) := by
  cases r with
  | error request => exact h
  | ok seen => exact hf seen h

theorem isPossible_foldlM {α : Type} {add : Seen → α → Except Request Seen}
    (hAdd : ∀ seen a, seen.config ≠ some [] → IsPossible (add seen a)) (as : List α)
    (h : seen.config ≠ some []) : IsPossible (as.foldlM add seen) := by
  induction as generalizing seen with
  | nil =>
      exact h
  | cons a as ih =>
      rw [List.foldlM_cons]
      exact (hAdd seen a h).bind fun _ => ih

theorem isPossible_addFlag (h : seen.config ≠ some []) (flag : Flag) :
    IsPossible (seen.addFlag flag) := by
  cases flag with
  | verbose => exact h
  | json =>
      rw [Seen.addFlag]
      split
      · exact isPossible_usageError
      · exact h
  | quiet =>
      rw [Seen.addFlag]
      split
      · exact isPossible_usageError
      · exact h
  | version => exact nofun
  | help => exact nofun

theorem isPossible_addLetters (h : seen.config ≠ some []) (place : Place) (letters : Text) :
    IsPossible (seen.addLetters place letters) := by
  refine isPossible_foldlM ?_ letters h
  intro seen letter h
  split
  · exact isPossible_usageError
  · exact isPossible_addFlag h _

theorem isPossible_addConfig (seen : Seen) (path : Text) : IsPossible (seen.addConfig path) := by
  rw [Seen.addConfig]
  split
  · exact isPossible_usageError
  · rename_i hPath
    intro hConfig
    cases hConfig
    simp at hPath

theorem isPossible_addValue (h : seen.config ≠ some []) (place : Place) (value : Text) :
    IsPossible (seen.addValue place value) := by
  rw [Seen.addValue]
  split
  · exact isPossible_usageError
  · exact h

theorem isPossible_addOption (h : seen.config ≠ some []) (place : Place) (name : Text)
    (value : Option Text) : IsPossible (addOption place seen name value) := by
  rw [addOption.eq_def]
  split
  · split
    · exact isPossible_addConfig seen _
    · exact isPossible_usageError
  · split
    · exact isPossible_usageError
    · exact isPossible_addFlag h _

theorem isPossible_readCommand (h : seen.config ≠ some []) (place : Place) (args : List Text) :
    IsPossible (readCommand place seen args) := by
  fun_induction readCommand place seen args with
  | case1 => exact h
  | case2 => exact isPossible_foldlM (fun _ value h => isPossible_addValue h place value) _ h
  | case3 _ _ _ s _ ih => exact (isPossible_addValue h place s).bind ih
  | case4 _ _ _ s _ ih => exact (isPossible_addLetters h place s).bind ih
  | case5 => exact isPossible_usageError
  | case6 seen _ _ _ _ _ path _ _ ih => exact (isPossible_addConfig seen path).bind ih
  | case7 => exact isPossible_usageError
  | case8 _ _ _ name value _ _ ih => exact (isPossible_addOption h place name value).bind ih

/-- What a request to run a command asks for has no empty path, and names to normalize if it is
about names to normalize. -/
def IsRunnable (request : Request) : Prop :=
  ∀ invocation, request = .run invocation →
    invocation.config ≠ some [] ∧ invocation.command ≠ .normalize []

theorem isRunnable_of_ne {request : Request} (h : ∀ invocation, request ≠ .run invocation) :
    IsRunnable request :=
  fun invocation hRun => absurd hRun (h invocation)

theorem isRunnable_of_error {r : Except Request Seen} (h : IsPossible r) {request : Request}
    (hRequest : r = .error request) : IsRunnable request := by
  subst hRequest
  exact isRunnable_of_ne h

theorem config_ne_of_ok {r : Except Request Seen} (h : IsPossible r) (hSeen : r = .ok seen) :
    seen.config ≠ some [] := by
  subst hSeen
  exact h

theorem isRunnable_request {front : Seen} (hFront : front.config ≠ some [])
    (h : seen.config ≠ some []) (place : Place) : IsRunnable (front.request place seen) := by
  intro invocation hRun
  have hConfig : (seen.config <|> front.config) ≠ some [] := by
    cases hSeen : seen.config with
    | none => exact hFront
    | some path =>
        rw [hSeen] at h
        exact h
  simp only [Seen.request.eq_def] at hRun
  split at hRun
  all_goals cases hRun
  all_goals exact ⟨hConfig, nofun⟩

theorem isRunnable_helpRequest (args : List Text) : IsRunnable (helpRequest args) := by
  rw [helpRequest.eq_def]
  split
  · exact isRunnable_of_ne nofun
  · split
    · exact isRunnable_of_ne nofun
    · exact isRunnable_of_ne nofun
  · exact isRunnable_of_ne nofun

theorem isRunnable_readFront (h : seen.config ≠ some []) (args : List Text) :
    IsRunnable (readFront seen args) := by
  fun_induction readFront seen args with
  | case1 | case2 | case4 | case9 | case12 => exact isRunnable_of_ne nofun
  | case3 => exact isRunnable_helpRequest _
  | case5 _ _ args _ _ place _ request hError =>
      exact isRunnable_of_error (isPossible_readCommand config_empty_ne place args) hError
  | case6 _ _ args _ _ place _ here hHere =>
      have hPossible := isPossible_readCommand config_empty_ne place args
      exact isRunnable_request h (config_ne_of_ok hPossible hHere) place
  | case7 _ _ _ s _ request hError =>
      exact isRunnable_of_error (isPossible_addLetters h .front s) hError
  | case8 _ _ _ s _ here hHere ih =>
      exact ih (config_ne_of_ok (isPossible_addLetters h .front s) hHere)
  | case10 seen _ _ _ _ _ path _ _ request hError =>
      exact isRunnable_of_error (isPossible_addConfig seen path) hError
  | case11 seen _ _ _ _ _ path _ _ here hHere ih =>
      exact ih (config_ne_of_ok (isPossible_addConfig seen path) hHere)
  | case13 _ _ _ name value _ _ request hError =>
      exact isRunnable_of_error (isPossible_addOption h .front name value) hError
  | case14 _ _ _ name value _ _ here hHere ih =>
      exact ih (config_ne_of_ok (isPossible_addOption h .front name value) hHere)

/-- What can be asked for: anything but an empty path and the normalization of no name. -/
theorem exists_parse_eq_run_iff {invocation : Invocation} :
    (∃ args, parse args = .run invocation) ↔
      invocation.config ≠ some [] ∧ invocation.command ≠ .normalize [] := by
  constructor
  · rintro ⟨args, hParse⟩
    exact isRunnable_readFront config_empty_ne args invocation hParse
  · rintro ⟨hPath, hNames⟩
    rcases invocation with ⟨config, json, verbosity, command⟩
    have hSame : Arguments.invocation ⟨none, false, 0⟩ ⟨config, json, verbosity⟩ command =
        ⟨config, json, verbosity, command⟩ := by
      rw [Arguments.invocation]
      cases config <;> cases json <;> cases verbosity <;> rfl
    refine ⟨_, (parse_arguments ⟨none, false, 0⟩ ⟨config, json, verbosity⟩ command nofun hPath
      hNames).trans ?_⟩
    rw [hSame]

end Arguments
end MemberNames
