import Tabular.Proofs.Configurations
import Tabular.Proofs.Cuts
import Tabular.Proofs.Responses
import Tabular.Proofs.Utf8
/-!
# What commands report

A command either succeeds or fails, and which of the two it is depends on the configuration, the text
it is given and the answer to that text. The line it writes, the failure it leaves and its exit code
all say the same.
-/

namespace Tabular.CommandLine

open Json (Value)

/-! ## The text of a command -/

/-- The characters a command is given: its argument, or else the input if that is UTF-8. -/
inductive Given (input : List UInt8) : Option String → List Char → Prop
  | argument (text : String) : Given input (some text) text.toList
  | input {cs : List Char} (h : input = Text.encodeUtf8 cs) : Given input none cs

/-- What is left of the given characters without the blanks around them, if anything is. -/
inductive IsQueryText (input : List UInt8) (arg : Option String) : String → Prop
  | intro {cs : List Char} (hgiven : Given input arg cs) (hne : Text.trim cs ≠ []) :
    IsQueryText input arg (String.ofList (Text.trim cs))

/-- Why there is no text. -/
inductive TextFails (input : List UInt8) : Option String → String → Prop
  | undecodable (h : ∀ cs, input ≠ Text.encodeUtf8 cs) :
    TextFails input none "stream did not contain valid UTF-8"
  | blank {arg : Option String} {cs : List Char} (hgiven : Given input arg cs)
    (hblank : ∀ c ∈ cs, Text.isBlank c = true) : TextFails input arg "Empty query"

section Texts
variable {input : List UInt8} {arg : Option String} {cs : List Char} {text message : String}

theorem queryText_of_given (h : Given input arg cs) : queryText input arg =
    if (Text.trim cs).isEmpty then .error (.io "Empty query")
    else .ok (String.ofList (Text.trim cs)) := by
  cases h with
  | argument text => rfl
  | input h =>
    simp only [queryText, Text.decodeUtf8_iff.2 h]
    rfl

theorem IsQueryText.queryText (h : IsQueryText input arg text) : queryText input arg = .ok text := by
  obtain ⟨hgiven, hne⟩ := h
  rw [queryText_of_given hgiven, if_neg (by rwa [List.isEmpty_iff])]

theorem TextFails.queryText (h : TextFails input arg message) :
    queryText input arg = .error (.io message) := by
  cases h with
  | undecodable h =>
    cases hdecode : Text.decodeUtf8 input with
    | error fault => simp only [CommandLine.queryText, hdecode]; rfl
    | ok cs => exact absurd (Text.decodeUtf8_iff.1 hdecode) (h cs)
  | blank hgiven hblank =>
    rw [queryText_of_given hgiven, Text.trim_blank ⟨_, hblank⟩]
    rfl

theorem isQueryText_or_fails (input : List UInt8) (arg : Option String) :
    (∃ text, IsQueryText input arg text) ∨ ∃ message, TextFails input arg message := by
  have hgiven : (∃ cs, Given input arg cs) ∨ ∃ message, TextFails input arg message := by
    cases arg with
    | some text => exact .inl ⟨_, .argument text⟩
    | none =>
      by_cases h : ∃ cs, input = Text.encodeUtf8 cs
      · obtain ⟨cs, h⟩ := h
        exact .inl ⟨cs, .input h⟩
      · exact .inr ⟨_, .undecodable (not_exists.1 h)⟩
  rcases hgiven with ⟨cs, hgiven⟩ | hfails
  · by_cases htrim : Text.trim cs = []
    · exact .inr ⟨_, .blank hgiven (Text.isBlank_of_trim_eq_nil htrim)⟩
    · exact .inl ⟨_, .intro hgiven htrim⟩
  · exact .inr hfails

end Texts

/-! ## Outcomes -/

/-- What the query of a text gives over the tables of a configuration. -/
def answerOf (world : World) (tables : TableFiles) (text : String) : Except QueryError Table :=
  (Query.executeText (tables.loader world.files) world.elapsed text).outcome

/-- When a command succeeds, with the line it writes and the members that the line stands for. -/
inductive Succeeds (world : World) : Command → String → List (String × Value) → Prop
  | query {path dataDir arg : Option String} {config : Config} {tables : TableFiles} {text : String}
    {rows : Table} (hconfig : Config.resolve world.files path dataDir = .ok config)
    (htables : config.tableFiles = .ok tables) (htext : IsQueryText world.input arg text)
    (hanswer : answerOf world tables text = .ok rows) :
    Succeeds world (.query path dataDir arg) (okJson rows) (okValues rows)
  | parse {arg : Option String} {text : String} {query : Query}
    (htext : IsQueryText world.input arg text) (hread : Query.read text = .ok query) :
    Succeeds world (.parse arg) (queryJson query) (Json.sorted query.values)

/-- When a command fails, with the code and the message of its failure. -/
inductive Fails (world : World) : Command → String → String → Prop
  | config {path dataDir arg : Option String} {error : ConfigError}
    (hconfig : Config.resolve world.files path dataDir = .error error) :
    Fails world (.query path dataDir arg) "FQ_CLI_CONFIG_ERROR" error.message
  | queryText {path dataDir arg : Option String} {config : Config} {message : String}
    (hconfig : Config.resolve world.files path dataDir = .ok config)
    (htext : TextFails world.input arg message) :
    Fails world (.query path dataDir arg) "FQ_CLI_IO_ERROR" message
  | query {path dataDir arg : Option String} {config : Config} {tables : TableFiles} {text : String}
    {error : QueryError} (hconfig : Config.resolve world.files path dataDir = .ok config)
    (htables : config.tableFiles = .ok tables) (htext : IsQueryText world.input arg text)
    (hanswer : answerOf world tables text = .error error) :
    Fails world (.query path dataDir arg) error.code error.message
  | parseText {arg : Option String} {message : String} (htext : TextFails world.input arg message) :
    Fails world (.parse arg) "FQ_CLI_IO_ERROR" message
  | parse {arg : Option String} {text : String} {error : ParseError}
    (htext : IsQueryText world.input arg text) (hread : Query.read text = .error error) :
    Fails world (.parse arg) error.code error.message

section Outcomes
variable {world : World} {command : Command} {line code message : String}
  {values : List (String × Value)}

/-- One of the two is always the case. -/
theorem succeeds_or_fails (world : World) (command : Command) :
    (∃ line values, Succeeds world command line values) ∨
      ∃ code message, Fails world command code message := by
  cases command with
  | query path dataDir arg =>
    cases hconfig : Config.resolve world.files path dataDir with
    | error error => exact .inr ⟨_, _, .config hconfig⟩
    | ok config =>
      obtain ⟨tables, htables⟩ := (Config.usable_of_resolve hconfig).tableFiles
      rcases isQueryText_or_fails world.input arg with ⟨text, htext⟩ | ⟨message, htext⟩
      · cases hanswer : answerOf world tables text with
        | error error => exact .inr ⟨_, _, .query hconfig htables htext hanswer⟩
        | ok rows => exact .inl ⟨_, _, .query hconfig htables htext hanswer⟩
      · exact .inr ⟨_, _, .queryText hconfig htext⟩
  | parse arg =>
    rcases isQueryText_or_fails world.input arg with ⟨text, htext⟩ | ⟨message, htext⟩
    · cases hread : Query.read text with
      | error error => exact .inr ⟨_, _, .parse htext hread⟩
      | ok query => exact .inl ⟨_, _, .parse htext hread⟩
    · exact .inr ⟨_, _, .parseText htext⟩

/-- A configuration that resolves needs no further check. -/
theorem prepare_of_resolve {path dataDir : Option String} {config : Config}
    (h : Config.resolve world.files path dataDir = .ok config) :
    ∃ level, prepare world path dataDir = .ok (config, level) := by
  have husable := Config.usable_of_resolve h
  obtain ⟨level, hlevel⟩ := husable.severity
  refine ⟨level, ?_⟩
  rw [prepare, h]
  change Except.mapError Failure.ofConfig (config.validate >>= fun _ =>
    config.severity >>= fun level => pure (config, level)) = _
  rw [Config.validate_iff.2 husable, hlevel]
  rfl

theorem executeQuery_outcome {config : Config} {tables : TableFiles}
    (h : config.tableFiles = .ok tables) (text : String) :
    (executeQuery world config text).2 = (answerOf world tables text).mapError .engine := by
  rw [executeQuery, h]
  rfl

/-- What a query reports once its configuration and its text are known. -/
theorem runQuery_of_text {path dataDir arg : Option String} {config : Config} {tables : TableFiles}
    {text : String} (hconfig : Config.resolve world.files path dataDir = .ok config)
    (htables : config.tableFiles = .ok tables) (htext : IsQueryText world.input arg text) :
    ∃ log, runQuery world path dataDir arg =
      report okJson log ((answerOf world tables text).mapError .engine) := by
  obtain ⟨level, hprepare⟩ := prepare_of_resolve hconfig
  rw [← executeQuery_outcome htables]
  simp only [runQuery, hprepare, htext.queryText]
  exact ⟨_, rfl⟩

theorem runParse_of_text {arg : Option String} {text : String}
    (htext : IsQueryText world.input arg text) : runParse world arg =
      report queryJson .initial ((Query.read text).mapError fun error => .engine (.parse error)) := by
  rw [runParse, htext.queryText]
  rfl

theorem Succeeds.run (h : Succeeds world command line values) :
    (run world command).output = line ++ "\n" ∧ (run world command).failure = none := by
  cases h with
  | query hconfig htables htext hanswer =>
    obtain ⟨log, hrun⟩ := runQuery_of_text hconfig htables htext
    rw [hanswer] at hrun
    rw [CommandLine.run, hrun]
    exact ⟨rfl, rfl⟩
  | parse htext hread =>
    rw [CommandLine.run, runParse_of_text htext, hread]
    exact ⟨rfl, rfl⟩

theorem Fails.run (h : Fails world command code message) :
    ∃ failure, (run world command).output = failureJson failure ++ "\n" ∧
      (run world command).failure = some failure ∧ failure.responseCode = code ∧
        failure.message = message := by
  cases h with
  | config hconfig =>
    rw [CommandLine.run, runQuery, prepare, hconfig]
    exact ⟨.ofConfig _, rfl, rfl, rfl, rfl⟩
  | queryText hconfig htext =>
    obtain ⟨level, hprepare⟩ := prepare_of_resolve hconfig
    simp only [CommandLine.run, runQuery, hprepare, htext.queryText]
    exact ⟨.io _, rfl, rfl, rfl, rfl⟩
  | query hconfig htables htext hanswer =>
    obtain ⟨log, hrun⟩ := runQuery_of_text hconfig htables htext
    rw [hanswer] at hrun
    rw [CommandLine.run, hrun]
    exact ⟨.engine _, rfl, rfl, rfl, rfl⟩
  | parseText htext =>
    rw [CommandLine.run, runParse, htext.queryText]
    exact ⟨.io _, rfl, rfl, rfl, rfl⟩
  | parse htext hread =>
    rw [CommandLine.run, runParse_of_text htext, hread]
    exact ⟨.engine (.parse _), rfl, rfl, rfl, rfl⟩

theorem Succeeds.written (h : Succeeds world command line values) :
    Json.Written line (.ofMembers values) := by
  cases h with
  | query => exact written_okJson _
  | parse => exact written_queryJson _

/-- A command has one answer. -/
theorem Succeeds.unique {line' : String} {values' : List (String × Value)}
    (h : Succeeds world command line values) (h' : Succeeds world command line' values') :
    line = line' ∧ values = values' := by
  have hline : line = line' := (String.append_left_inj "\n").1 (h.run.1.symm.trans h'.run.1)
  subst hline
  exact ⟨rfl, Json.Value.ofMembers_injective
    (Option.some.inj (h.written.read?.symm.trans h'.written.read?))⟩

theorem Succeeds.not_fails (h : Succeeds world command line values) :
    ¬Fails world command code message := by
  intro hfails
  obtain ⟨failure, -, hfailure, -⟩ := hfails.run
  cases h.run.2.symm.trans hfailure

end Outcomes

/-! ## Reports -/

theorem exitCode_eq_zero_iff (report : Report) : report.exitCode = 0 ↔ report.failure = none := by
  unfold Report.exitCode
  cases report.failure <;> simp

end Tabular.CommandLine
