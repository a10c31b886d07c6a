import EntityQuery.Query.Basic

/-!
Expressions as a query is put together: paths, values, calls and predicates, under the names
that the query language has for them.
-/

namespace EntityQuery.Expr

/-- An unbound path, as written. -/
def ofPath (s : String) : Expr := .path (Path.ofString s)

/-- A path from a join node. -/
def bound (node : NodeId) (aliasName : String) (field : Option String) : Expr :=
  .path (Path.bound node aliasName field)

def int (n : Int64) : Expr := .literal (.int n)

def float (x : Double) : Expr := .literal (.float x)

def string (s : String) : Expr := .literal (.string s)

def bool (b : Bool) : Expr := .literal (.bool b)

/-- A named parameter, with the value bound to it if that is known. -/
def named (name : String) (value : Option ParameterValue) : Expr :=
  .parameter { name := some name, value := value }

/-- The name of the call that passes the name of a function as its first argument. -/
def genericFunction : String := "FUNCTION"

/-- `FUNCTION('name', args...)`. -/
def generic (name : String) (args : List Expr) : Expr :=
  .call genericFunction (string name :: args)

/-- Marks a path as the argument of a function on collections. -/
def collectionArgument (keySide : Bool) : Expr → Expr
  | .path p => .path { p with inCollectionFunction := true, keySide := keySide }
  | e => e

/-- The keys of a map. -/
def key (e : Expr) : Expr := .call "KEY" [e.collectionArgument true]

/-- The values of a map. -/
def value (e : Expr) : Expr := .call "VALUE" [e.collectionArgument false]

/-- The entries of a map. -/
def entry (e : Expr) : Expr := .call "ENTRY" [e.collectionArgument false]

/-- The position in a list. -/
def index (e : Expr) : Expr := .call "INDEX" [e.collectionArgument false]

/-- The number of elements of a collection. -/
def size (e : Expr) : Expr := .call "SIZE" [e.collectionArgument false]

/-- A reference to the enclosing query. -/
def outer (e : Expr) : Expr := .call "OUTER" [e]

def count (e : Expr) : Expr := .aggregate "COUNT" [e] false

def countDistinct (e : Expr) : Expr := .aggregate "COUNT" [e] true

/-- The number of rows. -/
def countStar : Expr := .aggregate "COUNT" [] false

def sum (e : Expr) : Expr := .aggregate "SUM" [e] false

def avg (e : Expr) : Expr := .aggregate "AVG" [e] false

def min (e : Expr) : Expr := .aggregate "MIN" [e] false

def max (e : Expr) : Expr := .aggregate "MAX" [e] false

/-- `base[index]`, with an unbound base. -/
def element (base : String) (index : Expr) : Expr := .indexed (Path.ofString base) index

/-- Both predicates; the first may be missing. -/
def conjoin (first : Option Expr) (second : Expr) : Expr :=
  match first with
  | some e => .binary e .and second
  | none => second

/-- Whether a call is `OUTER(e)`. -/
def isOuterCall (function : String) (args : List Expr) : Bool :=
  Text.agreesIgnoringCase function "OUTER" && args.length == 1

/-- The function that a call `FUNCTION('name', ...)` names. -/
def genericName? (function : String) (args : List Expr) : Option String :=
  if Text.agreesIgnoringCase function genericFunction then
    match args with
    | .literal (.string name) :: _ => some name
    | _ => none
  else none

/-- Whether a call asks for the size of a collection. -/
def isSizeCall (function : String) : Bool := Text.agreesIgnoringCase function "SIZE"

/-- Whether an aggregate counts rows. -/
def isCountStar (function : String) (args : List Expr) : Bool :=
  args.isEmpty && Text.agreesIgnoringCase function "COUNT"

end EntityQuery.Expr
