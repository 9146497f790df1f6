import MemberNames.Proofs.Rules.Comparison
import MemberNames.Proofs.Text.Utf8
import MemberNames.Proofs.Yaml.Content

/-!
# Loading rules

A configuration has two keys, each of which may be left out. It is read only if it has no other key
and no key twice, so that a misspelled key does not pass unnoticed. A configuration whose country
codes are words can be written as a plain document, and is then loaded from it.

* `RulesConfig.Says`, `RulesConfig.readFields_eq_some_iff`: what keys and values say
* `RulesConfig.ofJson?_object_eq_some_iff`, `RulesConfig.ofYaml?_map_eq_some_iff`: objects and maps
* `RulesConfig.ofJson?_toJson`, `RulesConfig.load_document`: what is written is read back
* `Rules.load_eq_ok_iff`, `Rules.load_eq_error_iff`: the rules of a file, or why it has none
* `Rules.isWithin_of_load`, `Rules.isDeployable_iff`: what loaded rules accept, and which there are
-/

namespace MemberNames

open CountrySet (IsLetterPair)

theorem PolicyChoice.ofName?_eq_some_iff {s : Text} {choice : PolicyChoice} :
    ofName? s = some choice ↔ choice.name = s := by
  constructor
  · intro h
    have hName := List.find?_some (p := fun choice : PolicyChoice => choice.name = s) h
    exact of_decide_eq_true hName
  · rintro rfl
    cases choice <;> decide

namespace RulesConfig

/-! ## Keys and values -/

section

variable {α β : Type} {readPolicy : α → Option PolicyChoice} {readCodes : α → Option (List Text)}
  {fields : List (Text × α)}

/-- The values that fields give to a key. -/
def valuesOf (key : Text) (fields : List (Text × α)) : List α :=
  (fields.filter fun field => field.1 = key).map Prod.snd

theorem valuesOf_cons (key key' : Text) (value : α) (fields : List (Text × α)) :
    valuesOf key ((key', value) :: fields) =
      if key' = key then value :: valuesOf key fields else valuesOf key fields := by
  rw [valuesOf, List.filter_cons]
  by_cases hKey : key' = key
  · simp [hKey, valuesOf]
  · simp [hKey, valuesOf]

/-- What fields say of a configuration: all keys are known, and the values that a key has are read
as what there is for it in the draft. That is one value at most. -/
structure Says (readPolicy : α → Option PolicyChoice) (readCodes : α → Option (List Text))
    (fields : List (Text × α)) (draft : Draft) : Prop where
  keys : ∀ field ∈ fields, field.1 = policyKey ∨ field.1 = codesKey
  policy : List.Forall₂ (fun value choice => readPolicy value = some choice)
    (valuesOf policyKey fields) draft.policy.toList
  codes : List.Forall₂ (fun value codes => readCodes value = some codes)
    (valuesOf codesKey fields) draft.codes.toList

/-- What there is for a key after its values have been read behind what there was before. -/
def Extends (read : α → Option β) (values : List α) (before after : Option β) : Prop :=
  ∃ more, List.Forall₂ (fun value x => read value = some x) values more ∧
    before.toList ++ more = after.toList

variable {read : α → Option β} {value : α} {values : List α} {before after : Option β}

theorem extends_nil : Extends read [] before after ↔ before = after := by
  constructor
  · rintro ⟨more, hRead, hAfter⟩
    cases hRead
    rw [List.append_nil] at hAfter
    cases before with
    | none =>
        cases after with
        | none => rfl
        | some y => cases hAfter
    | some x =>
        cases after with
        | none => cases hAfter
        | some y => exact congrArg some (List.cons.inj hAfter).1
  · rintro rfl
    exact ⟨[], .nil, List.append_nil _⟩

theorem extends_none :
    Extends read values none after ↔
      List.Forall₂ (fun value x => read value = some x) values after.toList := by
  constructor
  · rintro ⟨more, hRead, hAfter⟩
    rw [← hAfter]
    exact hRead
  · intro hRead
    exact ⟨_, hRead, rfl⟩

theorem extends_cons_none :
    Extends read (value :: values) none after ↔
      ∃ x, read value = some x ∧ Extends read values (some x) after := by
  constructor
  · rintro ⟨more, hRead, hAfter⟩
    cases hRead with
    | cons hValue hMore => exact ⟨_, hValue, _, hMore, hAfter⟩
  · rintro ⟨x, hValue, more, hMore, hAfter⟩
    exact ⟨x :: more, .cons hValue hMore, hAfter⟩

/-- There is no second value for a key. -/
theorem not_extends_cons_some {x : β} : ¬ Extends read (value :: values) (some x) after := by
  rintro ⟨more, hRead, hAfter⟩
  cases hRead with
  | cons _ _ =>
      cases after with
      | none => cases hAfter
      | some y => cases hAfter

theorem readFields_eq_some_iff_extends {draft draft' : Draft} :
    readFields readPolicy readCodes draft fields = some draft' ↔
      (∀ field ∈ fields, field.1 = policyKey ∨ field.1 = codesKey) ∧
        Extends readPolicy (valuesOf policyKey fields) draft.policy draft'.policy ∧
          Extends readCodes (valuesOf codesKey fields) draft.codes draft'.codes := by
  have hKeys : codesKey ≠ policyKey := by decide
  induction fields generalizing draft with
  | nil =>
      rcases draft with ⟨policy, codes⟩
      rcases draft' with ⟨policy', codes'⟩
      simp [readFields, valuesOf, extends_nil]
  | cons field fields ih =>
      rcases field with ⟨key, value⟩
      rcases draft with ⟨policy, codes⟩
      rw [readFields, List.forall_mem_cons, valuesOf_cons, valuesOf_cons]
      by_cases hPolicy : key = policyKey
      · subst hPolicy
        cases policy with
        | none =>
            simp only [decide_true, Option.isNone_none, Bool.and_self, if_true,
              Option.bind_eq_bind, Option.bind_eq_some_iff, ih, hKeys.symm, if_false, or_false,
              true_and, extends_cons_none]
            constructor
            · rintro ⟨choice, hChoice, hRest, hPolicy, hCodes⟩
              exact ⟨hRest, ⟨choice, hChoice, hPolicy⟩, hCodes⟩
            · rintro ⟨hRest, ⟨choice, hChoice, hPolicy⟩, hCodes⟩
              exact ⟨choice, hChoice, hRest, hPolicy, hCodes⟩
        | some choice => simp [hKeys.symm, not_extends_cons_some]
      · by_cases hCodes : key = codesKey
        · subst hCodes
          cases codes with
          | none =>
              simp only [hKeys, decide_false, Bool.false_and, Bool.false_eq_true, if_false,
                decide_true, Option.isNone_none, Bool.and_self, if_true, Option.bind_eq_bind,
                Option.bind_eq_some_iff, ih, or_true, true_and, extends_cons_none]
              constructor
              · rintro ⟨codes, hCode, hRest, hPolicy, hCodes⟩
                exact ⟨hRest, hPolicy, codes, hCode, hCodes⟩
              · rintro ⟨hRest, hPolicy, codes, hCode, hCodes⟩
                exact ⟨codes, hCode, hRest, hPolicy, hCodes⟩
          | some texts => simp [hKeys, not_extends_cons_some]
        · simp [hPolicy, hCodes]

/-- A value for each of the two keys. -/
theorem says_pair {policyValue codesValue : α} {choice : PolicyChoice} {codes : List Text}
    (hPolicy : readPolicy policyValue = some choice) (hCodes : readCodes codesValue = some codes) :
    Says readPolicy readCodes [(policyKey, policyValue), (codesKey, codesValue)]
      ⟨some choice, some codes⟩ where
  keys := List.forall_mem_cons.2 ⟨.inl rfl, List.forall_mem_singleton.2 (.inr rfl)⟩
  policy := by
    have hKeys : codesKey ≠ policyKey := by decide
    simp only [valuesOf_cons, if_true, hKeys, if_false]
    exact .cons hPolicy .nil
  codes := by
    have hKeys : policyKey ≠ codesKey := by decide
    simp only [valuesOf_cons, if_true, hKeys, if_false]
    exact .cons hCodes .nil

/-- Keys and values are read as what they say, and if they say nothing they are not read. -/
theorem readFields_eq_some_iff {draft : Draft} :
    readFields readPolicy readCodes ⟨none, none⟩ fields = some draft ↔
      Says readPolicy readCodes fields draft := by
  rw [readFields_eq_some_iff_extends, extends_none, extends_none]
  constructor
  · rintro ⟨hKeys, hPolicy, hCodes⟩
    exact ⟨hKeys, hPolicy, hCodes⟩
  · intro h
    exact ⟨h.keys, h.policy, h.codes⟩

end

/-! ## Objects and maps -/

theorem ofJson?_object_eq_some_iff {fields : List (Text × Json)} {config : RulesConfig} :
    ofJson? (.object fields) = some config ↔
      ∃ draft, Says jsonPolicy? jsonCodes? fields draft ∧ draft.finish = config := by
  rw [ofJson?, Option.map_eq_some_iff]
  simp only [readFields_eq_some_iff]

/-- Each key of a map is itself a node, which has to stand for a scalar. -/
theorem ofYaml?_map_eq_some_iff {props : Yaml.Properties} {entries : List (Yaml.Node × Yaml.Node)}
    {config : RulesConfig} :
    let document : Yaml.Node := .map props entries
    ofYaml? document = some config ↔
      ∃ fields draft,
        List.Forall₂ (fun entry field => yamlText? document entry.1 = some field.1 ∧
          entry.2 = field.2) entries fields ∧
        Says (yamlPolicy? document) (yamlCodes? document) fields draft ∧
          draft.finish = config := by
  intro document
  have hEntry : ∀ (entry : Yaml.Node × Yaml.Node) (field : Text × Yaml.Node),
      (∃ key, yamlText? document entry.1 = some key ∧ pure (key, entry.2) = some field) ↔
        yamlText? document entry.1 = some field.1 ∧ entry.2 = field.2 := by
    rintro ⟨key, value⟩ ⟨text, value'⟩
    constructor
    · rintro ⟨text', hText, hField⟩
      cases hField
      exact ⟨hText, rfl⟩
    · rintro ⟨hText, rfl⟩
      exact ⟨text, hText, rfl⟩
  have hDocument : Yaml.Node.map props entries = document := rfl
  rw [ofYaml?]
  simp only [Option.bind_eq_bind, Option.bind_eq_some_iff, Result.mapM_eq_some_iff_forall₂,
    hDocument, hEntry, Option.map_eq_some_iff, readFields_eq_some_iff, exists_and_left]

theorem mapM_jsonText?_text (texts : List Text) :
    (texts.map Json.text).mapM jsonText? = some texts := by
  rw [Result.mapM_eq_some_iff_forall₂, List.forall₂_map_left_iff, List.forall₂_same]
  exact fun _ _ => rfl

theorem ofJson?_toJson (config : RulesConfig) : ofJson? config.toJson = some config := by
  rcases config with ⟨policy, codes⟩
  have hPolicy : jsonPolicy? (.text policy.name) = some policy :=
    PolicyChoice.ofName?_eq_some_iff.2 rfl
  exact ofJson?_object_eq_some_iff.2
    ⟨⟨some policy, some codes⟩, says_pair hPolicy (mapM_jsonText?_text codes), rfl⟩

end RulesConfig

/-! ## Files -/

namespace RulesConfig

variable {content : Option Octets}

theorem decode?_content_eq_some_iff {s : Text} :
    content.bind Utf8.decode? = some s ↔ content = some (Utf8.encode s) := by
  rw [Option.bind_eq_some_iff]
  constructor
  · rintro ⟨octets, rfl, hText⟩
    rw [Utf8.decode?_eq_some_iff.1 hText]
  · rintro rfl
    exact ⟨_, rfl, Utf8.decode?_encode s⟩

/-- A file that is no UTF-8 cannot be read, just like one that has no content. -/
theorem load_eq_unreadable_iff :
    load content = .error .unreadable ↔ ∀ s, content ≠ some (Utf8.encode s) := by
  simp only [ne_eq, ← decode?_content_eq_some_iff]
  rw [load]
  cases hText : content.bind Utf8.decode? with
  | none => simp
  | some s =>
      refine iff_of_false ?_ fun hNone => hNone s rfl
      simp only
      split
      · exact nofun
      · split
        · exact nofun
        · exact nofun

theorem load_eq_ok_iff {config : RulesConfig} :
    load content = .ok config ↔
      ∃ s, content = some (Utf8.encode s) ∧
        if s.all Unicode.isWhiteSpace then config = standard
        else ∃ document, Yaml.document? s = some document ∧ ofYaml? document = some config := by
  simp only [← decode?_content_eq_some_iff]
  rw [load]
  cases hText : content.bind Utf8.decode? with
  | none => simp
  | some s =>
      simp only [Option.some.injEq, exists_eq_left']
      split
      · rw [Except.ok.injEq, eq_comm]
      · rw [← Option.bind_eq_some_iff]
        cases (Yaml.document? s).bind ofYaml? with
        | none => simp
        | some config' => simp

end RulesConfig

/-! ## Configurations as documents -/

namespace RulesConfig

def policyWord : Yaml.Word :=
  ⟨policyKey, by decide, List.all_eq_true.1 (by decide), by decide⟩

def codesWord : Yaml.Word :=
  ⟨codesKey, by decide, List.all_eq_true.1 (by decide), by decide⟩

/-- The name of a choice as a word. -/
def choiceWord (choice : PolicyChoice) : Yaml.Word :=
  ⟨choice.name, by cases choice <;> decide, List.all_eq_true.1 (by cases choice <;> decide),
    by cases choice <;> decide⟩

/-- A configuration whose country codes are words, line by line. -/
def document (choice : PolicyChoice) (codes : List Yaml.Word) : Text :=
  [⟨policyWord, .word (choiceWord choice)⟩, ⟨codesWord, .list codes⟩].flatMap Yaml.Entry.render

theorem ofYaml?_document (choice : PolicyChoice) (codes : List Yaml.Word) :
    (Yaml.document? (document choice codes)).bind ofYaml? =
      some ⟨choice, codes.map Yaml.Word.text⟩ := by
  rw [document, Yaml.document?_render (by simp), Option.bind_some]
  refine ofYaml?_map_eq_some_iff.2 ⟨[(policyKey, (choiceWord choice).node),
    (codesKey, (Yaml.Value.list codes).node)], ⟨some choice, some (codes.map Yaml.Word.text)⟩,
      .cons ⟨rfl, rfl⟩ (.cons ⟨rfl, rfl⟩ .nil), says_pair ?_ ?_, rfl⟩
  · exact PolicyChoice.ofName?_eq_some_iff.2 rfl
  · cases codes with
    | nil => rfl
    | cons code codes =>
        refine Result.mapM_eq_some_iff_forall₂.2 ?_
        rw [List.forall₂_map_left_iff, List.forall₂_map_right_iff, List.forall₂_same]
        exact fun _ _ => rfl

/-- A configuration is loaded from its document. -/
theorem load_document (choice : PolicyChoice) (codes : List Yaml.Word) :
    load (some (Utf8.encode (document choice codes))) =
      .ok ⟨choice, codes.map Yaml.Word.text⟩ := by
  have hSolid : ¬ (document choice codes).all Unicode.isWhiteSpace := by
    have hLetter : 'o' ∈ policyKey := by decide
    intro hBlank
    have hMem : 'o' ∈ document choice codes :=
      List.mem_flatMap.2 ⟨_, List.mem_cons_self, List.mem_append_left _ hLetter⟩
    exact absurd (List.all_eq_true.1 hBlank 'o' hMem) (by decide)
  rw [load, Option.bind_some, Utf8.decode?_encode]
  simp only [if_neg hSolid, ofYaml?_document]

/-- A pair of letters as a word. -/
def letterPairWord (code : Text) (h : IsLetterPair code) : Yaml.Word where
  text := code
  ne_nil := by
    rintro rfl
    cases h.length
  isWordChar c hc := by
    have hUpper : c.isUpper := decide_eq_true (h.letters c hc)
    have hAlpha : c.isAlpha := Bool.or_eq_true_iff.2 (.inl hUpper)
    have hAlphanum : c.isAlphanum := Bool.or_eq_true_iff.2 (.inl hAlpha)
    exact Bool.or_eq_true_iff.2 (.inl hAlphanum)
  length_le := by
    rw [h.length]
    decide

theorem exists_words {codes : List Text} (h : ∀ code ∈ codes, IsLetterPair code) :
    ∃ words : List Yaml.Word, words.map Yaml.Word.text = codes := by
  induction codes with
  | nil =>
      exact ⟨[], rfl⟩
  | cons code codes ih =>
      rcases List.forall_mem_cons.1 h with ⟨hCode, hCodes⟩
      rcases ih hCodes with ⟨words, rfl⟩
      exact ⟨letterPairWord code hCode :: words, rfl⟩

end RulesConfig

namespace Rules

variable {content : Option Octets} {rules : Rules}

theorem load_eq_ok_iff :
    load content = .ok rules ↔
      ∃ config, RulesConfig.load content = .ok config ∧
        (∀ code ∈ config.extraCountryCodes, IsLetterPair code) ∧
          rules = ⟨.withAdditional config.extraCountryCodes, config.policy.policy⟩ := by
  rw [load, Result.bind_eq_ok_iff]
  simp only [Result.mapError_eq_ok_iff, RulesConfig.intoRules_eq_ok_iff]

/-- A file has no rules if there is no configuration in it, or for the first of its codes that is no
pair of letters. -/
theorem load_eq_error_iff {e : ConfigError} :
    load content = .error e ↔
      RulesConfig.load content = .error e ∨
        ∃ config before code after, RulesConfig.load content = .ok config ∧
          config.extraCountryCodes = before ++ code :: after ∧
            (∀ other ∈ before, IsLetterPair other) ∧ ¬ IsLetterPair code ∧
              e = .invalidConfig (.invalidExtraCountryCode code) := by
  rw [load, Result.bind_eq_error_iff]
  refine or_congr_right ?_
  simp only [Result.mapError_eq_error_iff, RulesConfig.intoRules_eq_error_iff]
  constructor
  · rintro ⟨config, hConfig, _, ⟨before, code, after, hCodes, hBefore, hCode, rfl⟩, rfl⟩
    exact ⟨config, before, code, after, hConfig, hCodes, hBefore, hCode, rfl⟩
  · rintro ⟨config, before, code, after, hConfig, hCodes, hBefore, hCode, rfl⟩
    exact ⟨config, hConfig, _, ⟨before, code, after, hCodes, hBefore, hCode, rfl⟩, rfl⟩

theorem isDeployable_of_load (h : load content = .ok rules) : rules.IsDeployable := by
  rcases Result.bind_eq_ok_iff.1 h with ⟨config, -, hRules⟩
  exact .inr ⟨config, Result.mapError_eq_ok_iff.1 hRules⟩

theorem isWithin_of_load (h : load content = .ok rules) : standard.IsWithin rules := by
  rcases Result.bind_eq_ok_iff.1 h with ⟨config, -, hRules⟩
  exact isWithin_of_intoRules (Result.mapError_eq_ok_iff.1 hRules)

/-- Each configuration that has rules has a file with these rules. -/
theorem exists_load {config : RulesConfig} (h : config.intoRules = .ok rules) :
    ∃ content, load content = .ok rules := by
  rcases RulesConfig.intoRules_eq_ok_iff.1 h with ⟨hCodes, -⟩
  rcases RulesConfig.exists_words hCodes with ⟨words, hWords⟩
  have hConfig : RulesConfig.load (some (Utf8.encode (RulesConfig.document config.policy words))) =
      .ok config := by
    rw [RulesConfig.load_document, hWords]
  refine ⟨some (Utf8.encode (RulesConfig.document config.policy words)), ?_⟩
  rw [load, hConfig, Result.ok_bind, h]
  rfl

/-- The rules that a deployment can have are the standard ones and those of files. -/
theorem isDeployable_iff :
    rules.IsDeployable ↔ rules = standard ∨ ∃ content, load content = .ok rules := by
  constructor
  · rintro (rfl | ⟨config, hConfig⟩)
    · exact .inl rfl
    · exact .inr (exists_load hConfig)
  · rintro (rfl | ⟨content, hLoad⟩)
    · exact .inl rfl
    · exact isDeployable_of_load hLoad

end Rules

example :
    RulesConfig.load (some (Utf8.encode
      "organisation_policy: permissive\nextra_country_codes: [XK]\n".toList)) =
      .ok ⟨.permissive, ["XK".toList]⟩ := by
  decide +kernel

end MemberNames
