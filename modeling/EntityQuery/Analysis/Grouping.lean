import EntityQuery.Expr.Traversal
import EntityQuery.Query.Agreement

/-!
Which expressions a query has to group by. A query that aggregates has to group by everything
that it selects or sorts by and does not aggregate; the ones that it does not list are its implicit
groups.
-/

namespace EntityQuery

/-- The clause that an expression stands in. -/
inductive ClauseKind where
  | select
  | condition
  | groupBy
  | having
  | orderBy
  | join
deriving DecidableEq, Repr

namespace ClauseKind

/-- Whether sizes of collections are taken after rows are grouped, and so count as
aggregates. -/
def sizesAggregate : ClauseKind → Bool
  | select | having | orderBy => true
  | condition | groupBy | join => false

/-- Whether a size may become the count of a joined collection. -/
def allowsCount : ClauseKind → Bool
  | select | orderBy => true
  | condition | groupBy | having | join => false

end ClauseKind

namespace Expr

/-- Whether an expression by itself counts as aggregated. Subqueries do, since what they hold is
not looked at. -/
def isAggregated (sizes : Bool) : Expr → Bool
  | .aggregate .. => true
  | .call f _ => sizes && isSizeCall f
  | .subquery _ => true
  | _ => false

/-- Whether an expression holds anything that counts as aggregated. -/
def aggregates (sizes : Bool) (e : Expr) : Bool := e.subexpressions.any (isAggregated sizes)

/-- Whether an expression has the same value for every row. -/
def isConstant : Expr → Bool
  | .literal _ | .parameter _ | .null | .verbatim _ => true
  | _ => false

/-- Whether a list holds an expression. -/
def isIn (e : Expr) (es : List Expr) : Bool := es.any fun other => other.agrees e

end Expr

namespace Select

/-- Whether the query aggregates in its SELECT or ORDER BY clause. -/
def aggregates (s : Select) : Bool :=
  s.items.any (fun i => i.expr.aggregates ClauseKind.select.sizesAggregate)
    || s.orderBy.any (fun i => i.expr.aggregates ClauseKind.orderBy.sizesAggregate)

/-- The roots of a query that selects nothing else, as paths. -/
def selectedRoots (s : Select) : List Expr :=
  if s.items.isEmpty then
    s.joins.roots.filterMap fun id =>
      (s.joins.node? id).map fun n => Expr.bound id n.aliasName none
  else []

/-- What the query selects or sorts by without aggregating it. -/
def groupCandidates (s : Select) : List Expr :=
  s.selectedRoots
    ++ (s.items.map SelectItem.expr).filter
      (fun e => !e.aggregates ClauseKind.select.sizesAggregate)
    ++ (s.orderBy.map OrderItem.expr).filter
      (fun e => !e.aggregates ClauseKind.orderBy.sizesAggregate)

/-- The groups that a query needs and does not list, each once. -/
def implicitGroups (s : Select) : List Expr :=
  if s.aggregates then
    s.groupCandidates.foldl (fun required e =>
      if e.isConstant || e.isIn s.groupBy || e.isIn required then required
      else required ++ [e]) []
  else []

/-- The query with its implicit groups listed. -/
def applyImplicitGroups (s : Select) : Select :=
  { s with groupBy := s.groupBy ++ s.implicitGroups }

end Select

end EntityQuery
