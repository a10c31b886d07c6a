import EntityQuery.CommandLine.Arguments
import EntityQuery.Document.Reading
import EntityQuery.Json.Reader
import EntityQuery.Render.Statement
import EntityQuery.Settings.Basic

/-!
What the command line does: it writes the statement of a JSON document in a dialect, or lists
what the dialects can say. All that it needs to know about its surroundings is a parameter, so the
same function serves a process and a test.
-/

namespace EntityQuery

/-- How a run ends: the exit code, and what is printed where. -/
structure Outcome where
  code : Nat
  out : String := ""
  err : String := ""
deriving DecidableEq, Repr

/-- What a run can see: two settings of the environment, and files. -/
structure Surroundings (m : Type → Type) where
  /-- The settings file that the environment names. -/
  configFile : Option String
  /-- The directory of the user's settings. -/
  configDirectory : Option String
  read : String → m FileContent

namespace Outcome

def success (lines : List String) : Outcome :=
  { code := 0, out := String.join (lines.map (· ++ "\n")) }

def failure (message : String) : Outcome := { code := 1, err := message ++ "\n" }

/-- The outcome of arguments that are not in order. -/
def misuse : Outcome :=
  { code := 2
    err := "Usage: querygen render <FILE> [-d DIALECT] [-c CONFIG] [--no-alias-inlining] [-v]\n" ++
      "       querygen capabilities [-d DIALECT]\n" }

end Outcome

def versionLine : String := "querygen 0.1.0"

/-- The settings file of a directory without any other hint. -/
def localConfigFile : String := "querygen.toml"

/-- The settings file in the directory of the user's settings. -/
def userConfigFile (directory : String) : String := directory ++ "/querygen/config.toml"

section

variable {m : Type → Type} [Monad m]

/-- The settings in a file that may be missing; without it, those that `otherwise` gives. -/
def Surroundings.loadIfPresent (s : Surroundings m) (path : String)
    (otherwise : m (Except SettingsError Settings)) : m (Except SettingsError Settings) := do
  match ← s.read path with
  | .missing => otherwise
  | content => pure (Settings.load path content)

/-- The settings in the file that is named, else in the one that the environment names, else in
the local one, else in the user's. Without any of them all settings have their defaults. -/
def Surroundings.settings (s : Surroundings m) (config : Option String) :
    m (Except SettingsError Settings) := do
  match config <|> s.configFile with
  | some path => return Settings.load path (← s.read path)
  | none =>
      s.loadIfPresent localConfigFile <|
        match s.configDirectory with
        | some directory =>
            s.loadIfPresent (userConfigFile directory) (pure (.ok {}))
        | none => pure (.ok {})

end

/-- A comment line that lists some values, unless there are none. -/
def listLine (label : String) (values : List String) : List String :=
  if values.isEmpty then [] else ["-- " ++ label ++ ": " ++ ", ".intercalate values]

/-- A comment line with a number, if there is one. -/
def numberLine (label : String) (value : Option UInt64) : List String :=
  match value with
  | some n => ["-- " ++ label ++ ": " ++ toString n.toNat]
  | none => []

/-- What is known of a query besides its text, as comment lines. -/
def RenderedQuery.details (q : RenderedQuery) (d : Dialect) : List String :=
  ["-- Dialect: " ++ d.name] ++ listLine "Parameters" q.parameters
    ++ numberLine "First result" q.limits.first ++ numberLine "Max results" q.limits.max
    ++ listLine "Returning" q.returning

/-- Writes the statement of a document that was read. -/
def renderDocument (arguments : RenderArguments) (settings : Settings) (dialect : Dialect) :
    FileContent → Outcome
  | .missing | .unreadable => .failure s!"Error reading file '{arguments.file}'"
  | .text content =>
      match (Json.read content).bind Statement.ofJson? with
      | none => .failure s!"Invalid query document '{arguments.file}'"
      | some statement =>
          let options := settings.options
          let ctx : RenderContext := {
            dialect := dialect
            functions := settings.functions
            options := { options with
              inlineAliases := options.inlineAliases && !arguments.keepAliases } }
          match statement.render ctx with
          | .error e => .failure ("Render error: " ++ e.message)
          | .ok query =>
              .success ((if arguments.verbose then query.details dialect else []) ++ [query.text])

def yesOrNo (b : Bool) : String := if b then "yes" else "no"

/-- What a dialect can say, line by line, and an empty line. -/
def Dialect.summary (d : Dialect) : List String :=
  let c := d.capabilities
  [d.name ++ ":",
    "  boolean literal:        " ++ c.booleanValue true,
    "  boolean condition:      " ++ c.booleanCondition true,
    "  null value:             " ++ c.nullValue,
    "  map value function:     " ++ c.mapValueFunction.getD "-",
    "  join condition keyword: " ++ c.conditionKeyword,
    "  FUNCTION(...) syntax:   " ++ yesOrNo c.genericFunctions,
    "  list parameter parens:  " ++ yesOrNo c.listParameterParentheses,
    "  native COUNT(*):        " ++ yesOrNo c.countStar,
    "  entity joins:           " ++ yesOrNo c.entityJoins,
    "  native set operations:  " ++ yesOrNo c.nativeSetOperations,
    "  WITH clause:            " ++ yesOrNo c.withClause,
    "  collection DML:         " ++ yesOrNo c.collectionModification,
    "  RETURNING:              " ++ yesOrNo c.returningClause,
    ""]

section

variable {m : Type → Type} [Monad m]

/-- Writes the statement of a document. Settings come first, then the dialect, then the
document. -/
def Surroundings.render (s : Surroundings m) (arguments : RenderArguments) : m Outcome := do
  match ← s.settings arguments.config with
  | .error e => return .failure ("Config error: " ++ e.message)
  | .ok settings =>
      match (arguments.dialect.map Except.ok).getD settings.dialect with
      | .error e => return .failure ("Config error: " ++ e.message)
      | .ok dialect =>
          return renderDocument arguments settings dialect (← s.read arguments.file)

/-- Does what the arguments ask for. -/
def Surroundings.run (s : Surroundings m) (args : List String) : m Outcome := do
  match Command.ofArguments? args with
  | none => return .misuse
  | some .version => return .success [versionLine]
  | some (.capabilities none) => return .success (Dialect.all.flatMap Dialect.summary)
  | some (.capabilities (some d)) => return .success d.summary
  | some (.render arguments) => s.render arguments

end

end EntityQuery
