import EntityQuery.Analysis.Grouping
import EntityQuery.Query.Build

/-!
Sizes of collections in a form that every dialect can evaluate. `SIZE(owner.collection)` becomes
the count of a joined collection, at most once in a query and only where joining it does not
change what is counted elsewhere; or a subquery that counts the elements.
-/

namespace EntityQuery

/-- How a size is evaluated. -/
inductive SizeStrategy where
  /-- The count of a collection that is joined for the purpose; the query is grouped by the
  rest. -/
  | count
  /-- A subquery over the collection. -/
  | subquery
deriving DecidableEq, Repr

/-- What changes in a query while its sizes are replaced, besides the expressions. -/
structure SizeState where
  joins : JoinGraph Expr
  aliases : AliasTable Expr
  /-- Whether a collection has been joined. -/
  counted : Bool := false

/-- What decides how sizes are evaluated and does not change meanwhile. -/
structure SizeScope where
  distinct : Bool
  groupBy : List Expr

/-- A replacement of sizes that failed, with the query as it is left: the clause that was being
worked on is gone. -/
structure SizeFailure where
  error : QueryError
  left : Select

/-- A step of a replacement, with the query as it is left if the step fails. -/
def SizeFailure.attempt {α : Type} (step : Except QueryError α) (left : Select) :
    Except SizeFailure α :=
  step.mapError (⟨·, left⟩)

namespace SizeScope

/-- Whether a group is more than a path or a plain value. -/
def isComplexGroup : Expr → Bool
  | .path _ => false
  | .literal (.int _) | .literal (.string _) => false
  | _ => true

/-- The strategy for a size in a clause. -/
def strategy (scope : SizeScope) (state : SizeState) (clause : ClauseKind) : SizeStrategy :=
  if clause.allowsCount && !scope.distinct && !state.joins.joinsCollection
      && !scope.groupBy.any isComplexGroup && !state.counted then .count
  else .subquery

end SizeScope

/-- `(SELECT COUNT(*) FROM owner.collection alias)` -/
def sizeSubquery (path aliasName : String) : Expr :=
  .subquery (.select ((Select.correlate {} path aliasName).select Expr.countStar none))

namespace SizeState

/-- Joins a collection for counting its elements. -/
def joinCollection (state : SizeState) (parent : NodeId) (collection aliasName : String) :
    Except QueryError (NodeId × SizeState) := do
  let (node, joins) ← state.joins.join parent collection aliasName .collection .left
  return (node,
    { joins := joins.modify node fun n => { n with implicit := true }
      aliases := state.aliases.insertJoin aliasName node true
      counted := true })

end SizeState

/-- The elements of a path before the last, and the last. -/
def splitLast? : List String → Option (List String × String)
  | [] => none
  | [x] => some ([], x)
  | x :: rest => (splitLast? rest).map fun r => (x :: r.1, r.2)

/-- What stands for the size of a path. A path of one element has no owner, and its size stays
as it is. Only a collection of a joined entity can be counted. -/
def replaceSize? (scope : SizeScope) (clause : ClauseKind) (p : Path) (state : SizeState) :
    Except QueryError (Option Expr × SizeState) :=
  match splitLast? p.elements with
  | none => .ok (none, state)
  | some ([], _) => .ok (none, state)
  | some (owner, collection) =>
      let base := "_".intercalate owner ++ "_" ++ collection
      let aliasName := state.joins.freshAlias base
      let viaSubquery := sizeSubquery (Dotted.join owner ++ "." ++ collection) aliasName
      let parent :=
        match owner with
        | [name] => state.aliases.joinNode? name
        | _ => none
      match parent, scope.strategy state clause with
      | some parent, .count => do
          let (node, state) ← state.joinCollection parent collection aliasName
          return (some (Expr.count (Expr.bound node aliasName none)), state)
      | _, _ => .ok (some viaSubquery, state)

mutual

/-- An expression with every size in it replaced, outside subqueries. -/
def Expr.replaceSizes (scope : SizeScope) (clause : ClauseKind) :
    Expr → SizeState → Except QueryError (Expr × SizeState)
  | .path p, state => .ok (.path p, state)
  | .literal v, state => .ok (.literal v, state)
  | .parameter p, state => .ok (.parameter p, state)
  | .call f args, state => do
      match Expr.isSizeCall f, args with
      | true, [.path p] =>
          let (replacement, state) ← replaceSize? scope clause p state
          return (replacement.getD (.call f args), state)
      | _, _ =>
          let (args, state) ← Expr.replaceSizesList scope clause args state
          return (.call f args, state)
  | .aggregate f args d, state => do
      let (args, state) ← Expr.replaceSizesList scope clause args state
      return (.aggregate f args d, state)
  | .subquery q, state => .ok (.subquery q, state)
  | .indexed base index, state => do
      let (index, state) ← index.replaceSizes scope clause state
      return (.indexed base index, state)
  | .null, state => .ok (.null, state)
  | .caseWhen operand branches otherwise, state => do
      let (operand, state) ← Expr.replaceSizesOption scope clause operand state
      let (branches, state) ← Expr.replaceSizesPairs scope clause branches state
      let (otherwise, state) ← Expr.replaceSizesOption scope clause otherwise state
      return (.caseWhen operand branches otherwise, state)
  | .binary left op right, state => do
      let (left, state) ← left.replaceSizes scope clause state
      let (right, state) ← right.replaceSizes scope clause state
      return (.binary left op right, state)
  | .not e, state => do
      let (e, state) ← e.replaceSizes scope clause state
      return (.not e, state)
  | .isNull e negated, state => do
      let (e, state) ← e.replaceSizes scope clause state
      return (.isNull e negated, state)
  | .like e pattern escape negated, state => do
      let (e, state) ← e.replaceSizes scope clause state
      let (pattern, state) ← pattern.replaceSizes scope clause state
      return (.like e pattern escape negated, state)
  | .oneOf e values negated, state => do
      let (e, state) ← e.replaceSizes scope clause state
      let (values, state) ← Expr.replaceSizesList scope clause values state
      return (.oneOf e values negated, state)
  | .between e low high negated, state => do
      let (e, state) ← e.replaceSizes scope clause state
      let (low, state) ← low.replaceSizes scope clause state
      let (high, state) ← high.replaceSizes scope clause state
      return (.between e low high negated, state)
  | .parens e, state => do
      let (e, state) ← e.replaceSizes scope clause state
      return (.parens e, state)
  | .verbatim s, state => .ok (.verbatim s, state)

def Expr.replaceSizesList (scope : SizeScope) (clause : ClauseKind) :
    List Expr → SizeState → Except QueryError (List Expr × SizeState)
  | [], state => .ok ([], state)
  | e :: rest, state => do
      let (e, state) ← e.replaceSizes scope clause state
      let (rest, state) ← Expr.replaceSizesList scope clause rest state
      return (e :: rest, state)

def Expr.replaceSizesOption (scope : SizeScope) (clause : ClauseKind) :
    Option Expr → SizeState → Except QueryError (Option Expr × SizeState)
  | none, state => .ok (none, state)
  | some e, state => do
      let (e, state) ← e.replaceSizes scope clause state
      return (some e, state)

def Expr.replaceSizesPairs (scope : SizeScope) (clause : ClauseKind) :
    List (Expr × Expr) → SizeState → Except QueryError (List (Expr × Expr) × SizeState)
  | [], state => .ok ([], state)
  | (a, b) :: rest, state => do
      let (a, state) ← a.replaceSizes scope clause state
      let (b, state) ← b.replaceSizes scope clause state
      let (rest, state) ← Expr.replaceSizesPairs scope clause rest state
      return ((a, b) :: rest, state)

end

/-- The items of a SELECT clause with their sizes replaced. -/
def SelectItem.replaceSizesList (scope : SizeScope) :
    List (SelectItem Expr) → SizeState → Except QueryError (List (SelectItem Expr) × SizeState)
  | [], state => .ok ([], state)
  | i :: rest, state => do
      let (e, state) ← i.expr.replaceSizes scope .select state
      let (rest, state) ← SelectItem.replaceSizesList scope rest state
      return ({ i with expr := e } :: rest, state)

/-- The items of an ORDER BY clause with their sizes replaced. -/
def OrderItem.replaceSizesList (scope : SizeScope) :
    List (OrderItem Expr) → SizeState → Except QueryError (List (OrderItem Expr) × SizeState)
  | [], state => .ok ([], state)
  | i :: rest, state => do
      let (e, state) ← i.expr.replaceSizes scope .orderBy state
      let (rest, state) ← OrderItem.replaceSizesList scope rest state
      return ({ i with expr := e } :: rest, state)

/-- The conditions of the listed nodes with their sizes replaced. -/
def SizeState.replaceInConditions (scope : SizeScope) :
    List NodeId → SizeState → Except QueryError SizeState
  | [], state => .ok state
  | id :: rest, state => do
      match (state.joins.node? id).bind JoinNode.condition with
      | none => state.replaceInConditions scope rest
      | some e =>
          let (e, state) ← e.replaceSizes scope .join state
          let joins := state.joins.modify id fun n => { n with condition := some e }
          { state with joins := joins }.replaceInConditions scope rest

namespace Select

/-- The query as it is after the sizes of some clauses have been replaced. -/
def withState (s : Select) (state : SizeState) : Select :=
  { s with joins := state.joins, aliases := state.aliases }

/-- The query with every size on its level replaced, clause by clause. If a collection was joined,
now or by a replacement before this one, the implicit groups are listed. -/
def replaceSizesAfter (counted : Bool) (s : Select) : Except SizeFailure Select := do
  let scope : SizeScope := ⟨s.distinct, s.groupBy⟩
  let state : SizeState := { joins := s.joins, aliases := s.aliases, counted := counted }
  let (items, state) ←
    SizeFailure.attempt (SelectItem.replaceSizesList scope s.items state) { s with items := [] }
  let s := { s.withState state with items := items }
  let (orderBy, state) ←
    SizeFailure.attempt (OrderItem.replaceSizesList scope s.orderBy state)
      { s with orderBy := [] }
  let s := { s.withState state with orderBy := orderBy }
  let (condition, state) ←
    SizeFailure.attempt (Expr.replaceSizesOption scope .condition s.condition state)
      { s with condition := none }
  let s := { s.withState state with condition := condition }
  let (groupBy, state) ←
    SizeFailure.attempt (Expr.replaceSizesList scope .groupBy s.groupBy state)
      { s with groupBy := [] }
  let s := { s.withState state with groupBy := groupBy }
  let (having, state) ←
    SizeFailure.attempt (Expr.replaceSizesOption scope .having s.having state)
      { s with having := none }
  let s := { s.withState state with having := having }
  let state ← SizeFailure.attempt (state.replaceInConditions scope s.joins.depthFirst) s
  let s := s.withState state
  return if state.counted then s.applyImplicitGroups else s

/-- The query with every size on its level replaced for the first time. -/
def replaceSizes (s : Select) : Except SizeFailure Select := s.replaceSizesAfter false

/-- The strategy for the first size that is met in a clause of the query. -/
def sizeStrategy (s : Select) (clause : ClauseKind) : SizeStrategy :=
  SizeScope.strategy ⟨s.distinct, s.groupBy⟩ { joins := s.joins, aliases := s.aliases } clause

end Select

end EntityQuery
