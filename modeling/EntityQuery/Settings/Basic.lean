import EntityQuery.Render.Context
import EntityQuery.Settings.TomlReader

/-!
Settings: the dialect, the options and the registered functions, as a TOML text gives them in its
`generator` table. What the text leaves out has a default, and what is not known is passed over. A
text that names an unknown dialect is refused when it is loaded.
-/

namespace EntityQuery

structure Settings where
  /-- The name of the dialect, as it was given. -/
  dialectName : String := Dialect.hibernate.name
  inlineAliases : Bool := true
  aliasPrefix : Option String := none
  /-- The functions that are registered besides the builtin ones. -/
  functionNames : List String := []
  builtinFunctions : Bool := true
deriving DecidableEq, Repr, Inhabited

/-- What there is under the name of a file. -/
inductive FileContent where
  | missing
  /-- Something is there, but it is no text. -/
  | unreadable
  | text (content : String)
deriving DecidableEq, Repr

/-- A name that no dialect has. -/
structure UnknownDialect where
  name : String
deriving DecidableEq, Repr

inductive SettingsError where
  | missing (path : String)
  | unreadable
  | malformed
  | unknownDialect (dialect : UnknownDialect)
deriving DecidableEq, Repr

namespace UnknownDialect

def message (d : UnknownDialect) : String := s!"Unknown dialect: {d.name}"

end UnknownDialect

namespace Dialect

/-- The dialect of a name, or the error that there is none. -/
def ofName (s : String) : Except UnknownDialect Dialect :=
  match ofName? s with
  | some d => .ok d
  | none => .error ⟨s⟩

end Dialect

namespace SettingsError

def message : SettingsError → String
  | missing path => s!"Config file not found: {path}"
  | unreadable => "Failed to read config file"
  | malformed => "Failed to parse config file"
  | unknownDialect d => d.message

end SettingsError

namespace TomlValue

def string? : TomlValue → Option String
  | string s => some s
  | _ => none

def bool? : TomlValue → Option Bool
  | bool b => some b
  | _ => none

def strings? : TomlValue → Option (List String)
  | array items => items.mapM string?
  | _ => none

/-- The fields of a table. An array gives values without names, in the order of `names`; a moment
gives none. -/
def fields? (names : List String) : TomlValue → Option TomlFields
  | table _ fields => some fields
  | array items => some (names.zip items)
  | moment => some []
  | _ => none

end TomlValue

namespace Settings

/-- A field, or what it is by default if it is left out. -/
def field {α : Type} (fields : TomlFields) (name : String) (default : α)
    (read : TomlValue → Option α) : Option α :=
  match fields.lookup name with
  | none => some default
  | some v => read v

/-- The fields of a `generator` table. -/
def fieldNames : List String :=
  ["dialect", "resolve_select_aliases", "alias_prefix", "registered_functions",
    "register_builtin_functions"]

/-- The settings of a `generator` table. -/
def ofTable (fields : TomlFields) : Option Settings := do
  let default : Settings := {}
  return {
    dialectName := ← field fields "dialect" default.dialectName TomlValue.string?
    inlineAliases := ← field fields "resolve_select_aliases" default.inlineAliases TomlValue.bool?
    aliasPrefix := ← field fields "alias_prefix" none fun v => v.string?.map some
    functionNames := ← field fields "registered_functions" [] TomlValue.strings?
    builtinFunctions :=
      ← field fields "register_builtin_functions" default.builtinFunctions TomlValue.bool? }

/-- The settings of a TOML text. Everything in it has to be readable, except for what an array of
fields has beyond the last one. -/
def ofToml? (s : String) : Option Settings := do
  let root ← Toml.read s
  let table ← field root "generator" [] (TomlValue.fields? fieldNames)
  let others := root.filter (·.1 != "generator")
  if TomlValue.fieldsReadable others && TomlValue.fieldsReadable table then ofTable table
  else none

def dialect (s : Settings) : Except UnknownDialect Dialect := Dialect.ofName s.dialectName

def options (s : Settings) : RenderOptions :=
  { inlineAliases := s.inlineAliases, aliasPrefix := s.aliasPrefix }

def functions (s : Settings) : FunctionRegistry :=
  (if s.builtinFunctions then FunctionRegistry.builtins else {}).registerAll s.functionNames

/-- The settings in a file. -/
def load (path : String) : FileContent → Except SettingsError Settings
  | .missing => .error (.missing path)
  | .unreadable => .error .unreadable
  | .text content =>
      match ofToml? content with
      | none => .error .malformed
      | some s =>
          match s.dialect with
          | .ok _ => .ok s
          | .error d => .error (.unknownDialect d)

end Settings

end EntityQuery
