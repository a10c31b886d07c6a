import EntityQuery.Dialect

/-!
The arguments of the command line. Options come before or after the file they go with, in their
long form with the value after an equals sign or as the next argument, or in their short form, in
which flags can be run together and a value may follow at once. Two dashes end the options.
-/

namespace EntityQuery

structure RenderArguments where
  file : String
  dialect : Option Dialect := none
  config : Option String := none
  keepAliases : Bool := false
  verbose : Bool := false
deriving DecidableEq, Repr

inductive Command where
  | version
  | render (arguments : RenderArguments)
  | capabilities (dialect : Option Dialect)
deriving DecidableEq, Repr

/-- What has been given so far. Nothing may be given twice. -/
structure GivenArguments where
  positional : Option String := none
  dialect : Option String := none
  config : Option String := none
  keepAliases : Bool := false
  verbose : Bool := false
deriving DecidableEq, Repr

/-- The options that a command has. -/
inductive OptionName where
  | dialect
  | config
  | keepAliases
  | verbose
deriving DecidableEq, Repr

namespace OptionName

def ofLong? : String → Option OptionName
  | "dialect" => some dialect
  | "config" => some config
  | "no-alias-inlining" => some keepAliases
  | "verbose" => some verbose
  | _ => none

def ofShort? : Char → Option OptionName
  | 'd' => some dialect
  | 'c' => some config
  | 'v' => some verbose
  | _ => none

/-- Whether a value goes with the option. -/
def takesValue : OptionName → Bool
  | dialect | config => true
  | keepAliases | verbose => false

end OptionName

namespace GivenArguments

/-- Takes the value of an option. -/
def setValue (g : GivenArguments) (option : OptionName) (value : String) :
    Option GivenArguments :=
  match option with
  | .dialect => if g.dialect.isSome then none else some { g with dialect := some value }
  | .config => if g.config.isSome then none else some { g with config := some value }
  | _ => none

/-- Takes an option without a value. -/
def setFlag (g : GivenArguments) (option : OptionName) : Option GivenArguments :=
  match option with
  | .keepAliases => if g.keepAliases then none else some { g with keepAliases := true }
  | .verbose => if g.verbose then none else some { g with verbose := true }
  | _ => none

def setPositional (g : GivenArguments) (value : String) : Option GivenArguments :=
  if g.positional.isSome then none else some { g with positional := some value }

/-- What an argument in short form leaves to be done. -/
inductive ShortStep where
  | done (given : GivenArguments)
  /-- The next argument is the value of the option. -/
  | awaiting (option : OptionName) (given : GivenArguments)

/-- Takes the letters of an argument in short form. -/
def setShort (allowed : OptionName → Bool) : List Char → GivenArguments → Option ShortStep
  | [], g => some (.done g)
  | c :: cs, g => do
      let option ← OptionName.ofShort? c
      if !allowed option then none
      else if option.takesValue then
        match cs with
        | [] => return .awaiting option g
        | '=' :: value => return .done (← g.setValue option (String.ofList value))
        | value => return .done (← g.setValue option (String.ofList value))
      else setShort allowed cs (← g.setFlag option)

/-- Takes an argument in long form, given without its dashes. -/
def setLong (allowed : OptionName → Bool) (word : List Char) (g : GivenArguments) :
    Option ShortStep := do
  let option ← OptionName.ofLong? (String.ofList (word.takeWhile (· != '=')))
  if !allowed option then none
  else
    match word.dropWhile (· != '='), option.takesValue with
    | [], true => return .awaiting option g
    | [], false => return .done (← g.setFlag option)
    | _ :: value, true => return .done (← g.setValue option (String.ofList value))
    | _ :: _, false => none

/-- Takes all arguments. `waiting` is the option whose value comes next, and `plain` says that the
options have ended. -/
def collect (allowed : OptionName → Bool) :
    List String → Option OptionName → Bool → GivenArguments → Option GivenArguments
  | [], none, _, g => some g
  | [], some _, _, _ => none
  | arg :: rest, waiting, plain, g => do
      match waiting, plain, arg.toList with
      | some _, _, '-' :: _ :: _ => none
      | some option, _, _ => collect allowed rest none plain (← g.setValue option arg)
      | none, true, _ => collect allowed rest none true (← g.setPositional arg)
      | none, false, ['-', '-'] => collect allowed rest none true g
      | none, false, '-' :: '-' :: word =>
          match ← g.setLong allowed word with
          | .done g => collect allowed rest none false g
          | .awaiting option g => collect allowed rest (some option) false g
      | none, false, '-' :: c :: letters =>
          match ← g.setShort allowed (c :: letters) with
          | .done g => collect allowed rest none false g
          | .awaiting option g => collect allowed rest (some option) false g
      | none, false, _ => collect allowed rest none false (← g.setPositional arg)

/-- The dialect that was named; the name has to be one. -/
def namedDialect? (g : GivenArguments) : Option (Option Dialect) :=
  match g.dialect with
  | none => some none
  | some name => (Dialect.ofName? name).map some

/-- A path that was given; it cannot be empty. -/
def nonEmpty? (s : String) : Option String := if s.isEmpty then none else some s

def toRender? (g : GivenArguments) : Option RenderArguments := do
  let config ←
    match g.config with
    | none => some none
    | some path => (nonEmpty? path).map some
  return {
    file := ← nonEmpty? (← g.positional)
    dialect := ← g.namedDialect?
    config := config
    keepAliases := g.keepAliases
    verbose := g.verbose }

end GivenArguments

namespace Command

/-- The command that the arguments ask for, if they are in order. -/
def ofArguments? : List String → Option Command
  | "render" :: rest => do
      let given ← GivenArguments.collect (fun _ => true) rest none false {}
      return .render (← given.toRender?)
  | "capabilities" :: rest => do
      let given ← GivenArguments.collect (· = .dialect) rest none false {}
      if given.positional.isSome then none
      else return .capabilities (← given.namedDialect?)
  | "--version" :: _ => some .version
  | first :: _ => if first.toList.take 2 = ['-', 'V'] then some .version else none
  | [] => none

end Command

end EntityQuery
