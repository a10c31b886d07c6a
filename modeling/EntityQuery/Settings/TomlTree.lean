/-!
The tree that a TOML text builds up: tables within tables. How a table came about decides what
may still be added to it.
-/

namespace EntityQuery

/-- How a table came about. -/
inductive TomlTableOrigin where
  /-- By a header of its own. -/
  | header
  /-- On the way to a table with a header; a header of its own may follow. -/
  | implied
  /-- By a dotted key. -/
  | dotted
  /-- In braces, and complete. -/
  | closed
deriving DecidableEq, Repr

inductive TomlValue where
  | string (value : String)
  | bool (value : Bool)
  | number
  /-- A date, a time or both. -/
  | moment
  | array (items : List TomlValue)
  | table (origin : TomlTableOrigin) (fields : List (String × TomlValue))
  /-- The tables that headers in double brackets add up, the last one first. -/
  | tables (items : List (List (String × TomlValue)))
  /-- A number that is written by the rules and too great to be read. It does no harm where it is
  not looked at. -/
  | unreadable

abbrev TomlFields := List (String × TomlValue)

namespace TomlValue

mutual

/-- Whether a value and all that it holds can be read. -/
def isReadable : TomlValue → Bool
  | unreadable => false
  | string _ | bool _ | number | moment => true
  | array items => itemsReadable items
  | table _ fields => fieldsReadable fields
  | tables items => tablesReadable items

def itemsReadable : List TomlValue → Bool
  | [] => true
  | v :: rest => v.isReadable && itemsReadable rest

def fieldsReadable : List (String × TomlValue) → Bool
  | [] => true
  | (_, v) :: rest => v.isReadable && fieldsReadable rest

def tablesReadable : List (List (String × TomlValue)) → Bool
  | [] => true
  | fields :: rest => fieldsReadable fields && tablesReadable rest

end

end TomlValue

namespace TomlFields

/-- Changes the value of a key, or adds the key at the end. The change sees the old value. -/
def update (key : String) (f : Option TomlValue → Option TomlValue) :
    TomlFields → Option TomlFields
  | [] => (f none).map fun v => [(key, v)]
  | (k, v) :: rest =>
      if k = key then (f (some v)).map fun v => (k, v) :: rest
      else (update key f rest).map fun rest => (k, v) :: rest

/-- Adds a value under a key that is not taken. -/
def addNew (key : String) (value : TomlValue) : TomlFields → Option TomlFields :=
  update key fun old => if old.isSome then none else some value

/-- Adds a value under a dotted key. Tables on the way are made where there are none. The way does
not lead through tables that have a header of their own or are complete, and it ends at a table
that dotted keys made. -/
def addDotted (value : TomlValue) : List String → TomlFields → Option TomlFields
  | [], _ => none
  | [key], fields => addNew key value fields
  | key :: path, fields =>
      update key (fun old =>
        match old with
        | none => (addDotted value path []).map (.table .dotted)
        | some (.table origin inner) =>
            if origin = .dotted ∨ (origin = .implied ∧ path.length ≠ 1) then
              (addDotted value path inner).map (.table origin)
            else none
        | some (.tables (last :: earlier)) =>
            if path.length = 1 then none
            else (addDotted value path last).map fun last => .tables (last :: earlier)
        | some _ => none) fields

/-- Changes the fields of the table at the path of a header. Tables on the way are made where
there are none, and of tables that add up the last one is meant. -/
def modifyAt (f : TomlFields → Option TomlFields) : List String → TomlFields → Option TomlFields
  | [], fields => f fields
  | key :: path, fields =>
      update key (fun old =>
        match old with
        | none => (modifyAt f path []).map (.table .implied)
        | some (.table origin inner) =>
            if origin = .closed then none
            else (modifyAt f path inner).map (.table origin)
        | some (.tables (last :: earlier)) =>
            (modifyAt f path last).map fun last => .tables (last :: earlier)
        | some _ => none) fields

/-- Opens the table of a header. -/
def openTable (path : List String) (fields : TomlFields) : Option TomlFields :=
  match path.getLast? with
  | some key =>
      modifyAt (update key fun old =>
        match old with
        | none => some (.table .header [])
        | some (.table .implied inner) => some (.table .header inner)
        | some _ => none) path.dropLast fields
  | none => none

/-- Opens a further table under the name of a header in double brackets. -/
def openArrayTable (path : List String) (fields : TomlFields) : Option TomlFields :=
  match path.getLast? with
  | some key =>
      modifyAt (update key fun old =>
        match old with
        | none => some (.tables [[]])
        | some (.tables items) => some (.tables ([] :: items))
        | some _ => none) path.dropLast fields
  | none => none

/-- Adds a value under a dotted key to the table that was opened last. -/
def addUnder (header path : List String) (value : TomlValue) (fields : TomlFields) :
    Option TomlFields :=
  modifyAt (addDotted value path) header fields

end TomlFields

end EntityQuery
