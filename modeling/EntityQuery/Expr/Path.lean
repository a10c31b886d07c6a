import EntityQuery.Joins
import EntityQuery.Text.Dotted

/-!
Attribute paths such as `p.address.city`. A path may be bound to a join node; an unbound one is
resolved by its first element when it is written.
-/

namespace EntityQuery

/-- A path to an entity or to one of its attributes. -/
structure Path where
  /-- The path as written, element by element. -/
  elements : List String := []
  /-- The join node that the path starts from, once it is known. -/
  base : Option NodeId := none
  /-- The attribute of a bound path; none stands for the node itself. -/
  field : Option String := none
  /-- Whether the path is the argument of a function on collections. -/
  inCollectionFunction : Bool := false
  /-- Whether the path stands for the keys of a map. -/
  keySide : Bool := false
deriving DecidableEq, Repr, Inhabited

namespace Path

/-- The unbound path of a text. -/
def ofString (s : String) : Path := { elements := Dotted.split s }

/-- A path bound to a join node. -/
def bound (node : NodeId) (aliasName : String) (field : Option String) : Path where
  elements := aliasName :: (field.map Dotted.split).getD []
  base := some node
  field := field

/-- The path as written. -/
def text (p : Path) : String := Dotted.join p.elements

/-- The first element, or the empty text if there is none. -/
def head (p : Path) : String := p.elements.headD ""

def isSingle (p : Path) : Bool := p.elements.length == 1

/-- What follows the first element, if anything does. -/
def tail? (p : Path) : Option String :=
  match p.elements with
  | _ :: second :: rest => some (Dotted.join (second :: rest))
  | _ => none

/-- Binds a path to the copy of its node. -/
def rebind (numbers : Renumbering) (p : Path) : Path :=
  { p with base := p.base.map numbers.apply }

end Path

end EntityQuery
