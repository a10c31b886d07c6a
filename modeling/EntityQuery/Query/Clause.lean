import EntityQuery.Aliases
import EntityQuery.Token

/-!
The parts that clauses of a query are made of. Where a part holds an expression, the type of
expressions is a parameter.
-/

namespace EntityQuery

/-- An item of the SELECT clause. -/
structure SelectItem (ε : Type) where
  expr : ε
  aliasName : Option String := none
deriving Repr, Inhabited

inductive SortDirection where
  | asc
  | desc
deriving DecidableEq, Repr, Inhabited

/-- Where the rows without a value go. -/
inductive NullsOrder where
  | first
  | last
deriving DecidableEq, Repr

/-- An item of an ORDER BY clause. -/
structure OrderItem (ε : Type) where
  expr : ε
  direction : SortDirection := .asc
  nulls : Option NullsOrder := none
deriving Repr, Inhabited

/-- Which rows of a result are wanted: how many to skip, and how many to take at most. -/
structure Limits where
  first : Option UInt64 := none
  max : Option UInt64 := none
deriving DecidableEq, Repr, Inhabited

/-- The operators between queries. -/
inductive SetOperator where
  | union
  | unionAll
  | intersect
  | intersectAll
  | except
  | exceptAll
deriving DecidableEq, Repr

/-- The entity that a modification works on, with the namespace of its level. -/
structure Target (ε : Type) where
  entity : String
  aliasName : String
  joins : JoinGraph ε := {}
  aliases : AliasTable ε := {}
deriving Repr, Inhabited

namespace Limits

/-- Whether any limit is set. -/
def any (l : Limits) : Bool := l.first.isSome || l.max.isSome

end Limits

namespace SortDirection

def keyword : SortDirection → Keyword
  | asc => .ASC
  | desc => .DESC

end SortDirection

namespace NullsOrder

def keyword : NullsOrder → Keyword
  | first => .NULLS_FIRST
  | last => .NULLS_LAST

end NullsOrder

namespace OrderItem

variable {ε : Type}

/-- What follows the expression of an item: the direction and the place of nulls. -/
def orderTokens (direction : SortDirection) (nulls : Option NullsOrder) : List Token :=
  [.space, .keyword direction.keyword] ++
    match nulls with
    | some n => [.space, .keyword n.keyword]
    | none => []

end OrderItem

namespace SetOperator

def name : SetOperator → String
  | union => "UNION"
  | unionAll => "UNION_ALL"
  | intersect => "INTERSECT"
  | intersectAll => "INTERSECT_ALL"
  | except => "EXCEPT"
  | exceptAll => "EXCEPT_ALL"

/-- The function that stands for the operator where queries are arguments. -/
def marker (op : SetOperator) : String := "SET_" ++ op.name

/-- Whether duplicates are kept. -/
def keepsAll : SetOperator → Bool
  | unionAll | intersectAll | exceptAll => true
  | _ => false

def keyword : SetOperator → Keyword
  | union | unionAll => .UNION
  | intersect | intersectAll => .INTERSECT
  | except | exceptAll => .EXCEPT

/-- The operator as written between queries. -/
def tokens (op : SetOperator) : List Token :=
  .keyword op.keyword :: if op.keepsAll then [.space, .keyword .ALL] else []

end SetOperator

namespace Target

variable {ε : Type}

/-- The target of a modification of `entity`: its only join node is the entity itself. -/
def ofEntity (entity aliasName : String) : Target ε :=
  let (root, joins) := JoinGraph.addRoot {} entity aliasName
  { entity := entity
    aliasName := aliasName
    joins := joins
    aliases := AliasTable.insertJoin {} aliasName root false }

/-- A copy with nodes numbered anew, and the new numbers. -/
def copy (rebind : Renumbering → ε → ε) (t : Target ε) :
    Except CopyFailure (Target ε × Renumbering) := do
  let (joins, numbers) ← t.joins.copyInto rebind {}
  pure ({ t with joins := joins, aliases := t.aliases.rebind rebind numbers }, numbers)

end Target

end EntityQuery
