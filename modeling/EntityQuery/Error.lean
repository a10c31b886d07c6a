import EntityQuery.Dialect
import EntityQuery.Number.DecimalText

/-!
What can go wrong when a query is built, checked or written, by cause. The wording is in
`QueryError.message` alone.
-/

namespace EntityQuery

/-- The position of a node in a join graph. -/
abbrev NodeId := Nat

/-- Shapes that a dialect cannot say. -/
inductive UnsupportedShape where
  | function (name : String)
  | entityJoin (aliasName : String)
  | withClause
  | collectionDelete (collection : String)
  | returningClause
deriving DecidableEq, Repr

/-- Combinations that no dialect could say. -/
inductive InvalidShape where
  | noRoot
  | joinPathWithoutAttribute (path : String)
  | nonFiniteLiteral (value : Double)
  | rootWithParent (aliasName : String)
  | joinWithoutParent (aliasName : String)
  | crossJoinOfAttribute (aliasName : String)
  | crossJoinWithCondition (aliasName : String)
  | offsetWithoutLimit
  | cteWithoutAttributes (entity : String)
  | cteWidth (entity : String) (attributes values : Nat)
  | cteLimited (entity : String)
  | updateWithoutAssignments
deriving DecidableEq, Repr

/-- References that lead nowhere. -/
inductive Unresolved where
  | node (id : NodeId)
  | joinAlias (aliasName : String)
  | pathNode (path : String) (id : NodeId)
  | parentNode (aliasName : String)
  | parameterName
deriving DecidableEq, Repr

/-- Why a query could not be built or written. -/
inductive QueryError where
  | unsupported (dialect : Dialect) (shape : UnsupportedShape)
  | invalid (shape : InvalidShape)
  | unresolved (reference : Unresolved)
deriving DecidableEq, Repr

namespace UnsupportedShape

def message : UnsupportedShape → String
  | function name => s!"Unknown function [{name}] is used!"
  | entityJoin aliasName => s!"entity join '{aliasName}' is not supported"
  | withClause => "WITH clause is not supported"
  | collectionDelete collection => s!"DELETE on collection '{collection}' is not supported"
  | returningClause => "RETURNING clause is not supported"

end UnsupportedShape

namespace InvalidShape

def message : InvalidShape → String
  | noRoot => "query has no FROM clause"
  | joinPathWithoutAttribute path => s!"join path '{path}' has no attribute"
  | nonFiniteLiteral value => "non-finite float literal " ++ value.nonFiniteText
  | rootWithParent aliasName => s!"root '{aliasName}' cannot be joined"
  | joinWithoutParent aliasName => s!"join '{aliasName}' has no parent"
  | crossJoinOfAttribute aliasName => s!"cross join '{aliasName}' must join an entity"
  | crossJoinWithCondition aliasName => s!"cross join '{aliasName}' cannot have a condition"
  | offsetWithoutLimit => "First result without max results is not supported!"
  | cteWithoutAttributes entity => s!"CTE '{entity}' declares no attributes"
  | cteWidth entity attributes values =>
      s!"CTE '{entity}' binds {attributes} attributes but its body produces {values} values"
  | cteLimited entity => s!"CTE '{entity}' cannot limit its body"
  | updateWithoutAssignments => "UPDATE without assignments"

end InvalidShape

namespace Unresolved

def message : Unresolved → String
  | node id => s!"join node #{id} does not exist"
  | joinAlias aliasName => s!"'{aliasName}' is not a join alias"
  | pathNode path id => s!"path '{path}' is bound to unknown join node #{id}"
  | parentNode aliasName => s!"join '{aliasName}' has no parent node"
  | parameterName => "parameter has no name"

end Unresolved

namespace QueryError

def message : QueryError → String
  | unsupported dialect shape => s!"Unsupported by {dialect.name}: " ++ shape.message
  | invalid shape => "Invalid query shape: " ++ shape.message
  | unresolved reference => "Unresolved reference: " ++ reference.message

end QueryError

/-- The operations that some statements do not have. Copying is the only one: a delete of
collection elements is bound to the collection it was written for. -/
inductive CopyFailure where
  /-- The statement is, or embeds in a WITH clause, a delete of collection elements. -/
  | collectionDelete
  /-- A join graph lists a root that is no node of it. -/
  | missingNode (id : NodeId)
deriving DecidableEq, Repr

namespace CopyFailure

def message : CopyFailure → String
  | collectionDelete => "Operation 'copy' is not supported for DeleteCollectionQuery"
  | missingNode id => s!"join node #{id} does not exist"

end CopyFailure

end EntityQuery
