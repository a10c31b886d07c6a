import EntityQuery.CommandLine.Run

/-!
The program: it hands its arguments, its environment and its files to the command line, and prints
what comes of it.
-/

open EntityQuery

/-- What there is under the name of a file. -/
def readContent (path : String) : IO FileContent := do
  try
    return .text (← IO.FS.readFile path)
  catch e =>
    match e with
    | .noFileOrDirectory .. => return .missing
    | _ => return .unreadable

/-- The directory of the user's settings. -/
def userDirectory : IO (Option String) := do
  let isAbsolute (path : String) : Bool := path.startsWith "/"
  match (← IO.getEnv "XDG_CONFIG_HOME").filter isAbsolute with
  | some path => return some path
  | none =>
      match (← IO.getEnv "HOME").filter (!·.isEmpty) with
      | some home => return some (home ++ "/.config")
      | none => return none

def main (args : List String) : IO UInt32 := do
  let surroundings : Surroundings IO := {
    configFile := ← IO.getEnv "QUERYGEN_CONFIG"
    configDirectory := ← userDirectory
    read := readContent }
  let outcome ← surroundings.run args
  IO.print outcome.out
  IO.eprint outcome.err
  return outcome.code.toUInt32
