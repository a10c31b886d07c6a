import EntityQuery.Text.Casing

/-!
The functions that a persistence provider has registered under names of their own. Names are
compared in lower case.
-/

namespace EntityQuery

/-- Registered names, in lower case and ascending order, each once. -/
structure FunctionRegistry where
  names : List String := []
deriving DecidableEq, Repr, Inhabited

namespace FunctionRegistry

/-- Puts a name into a list in ascending order, unless it is there. -/
def insertName (name : String) : List String → List String
  | [] => [name]
  | n :: rest =>
      if name = n then n :: rest
      else if name < n then name :: n :: rest
      else n :: insertName name rest

def register (r : FunctionRegistry) (name : String) : FunctionRegistry :=
  ⟨insertName (Text.lower name) r.names⟩

def contains (r : FunctionRegistry) (name : String) : Bool :=
  r.names.contains (Text.lower name)

def registerAll (r : FunctionRegistry) (names : List String) : FunctionRegistry :=
  names.foldl register r

/-- The functions that stand for limits, counts and set operations, and some helpers. -/
def builtinNames : List String :=
  ["limit", "count_star", "set_union", "set_union_all", "set_intersect", "set_intersect_all",
    "set_except", "set_except_all", "group_concat", "cast_string"]

def builtins : FunctionRegistry := registerAll {} builtinNames

end FunctionRegistry

end EntityQuery
